/-
`Encode` and `EncodeFile` write the containers of valid payloads.

Both start from zeros and store fields over them.  A store at the end of what
has been written eats as many zeros as it is long; what is left of the zeros of
a record is the padding of its name.
-/
import VitaSX2.SaveState.Decoding

namespace VitaSX2.SaveStateRaw

open LittleEndian

/-! ### Stores over zeros -/

/-- A store at the end of what has been written. -/
lemma store_fill {done data : List UInt8} {n offset : ℕ} (after : List UInt8) (hoffset : offset = done.length)
    (hn : data.length ≤ n) :
    store (done ++ (List.replicate n 0 ++ after)) offset data =
      (done ++ data) ++ (List.replicate (n - data.length) 0 ++ after) := by
  have hzeros : List.replicate n (0 : UInt8) =
      List.replicate data.length 0 ++ List.replicate (n - data.length) 0 := by
    rw [List.replicate_append_replicate, Nat.add_sub_cancel' hn]
  rw [hzeros, List.append_assoc, store_append done _ _ data hoffset List.length_replicate.symm,
    List.append_assoc]

lemma storeHeader_zeros (after : List UInt8) (totalSize : ℕ) :
    storeHeader (List.replicate headerSize 0 ++ after) totalSize =
      headerBytes totalSize ++ after := by
  have hstart : List.replicate headerSize 0 ++ after =
      ([] : List UInt8) ++ (List.replicate 56 0 ++ after) := rfl
  have hmagic : magic.length = 8 := rfl
  simp only [storeHeader, storeNat]
  rw [hstart, store_fill, store_fill, store_fill, store_fill, store_fill,
    store_fill, store_fill, store_fill, store_fill, store_fill]
  · simp [headerBytes, hmagic]
  all_goals simp [hmagic]

/-- The entry as a reader sees it. -/
def EncodedEntry.decoded (entry : EncodedEntry) : DecodedEntry :=
  ⟨entry.payloadOffset, entry.size, entry.crc32⟩

lemma storeRecord_zeros {before : List UInt8} (after : List UInt8) {i : ℕ} (hi : i < entryCount)
    (entry : EncodedEntry) (hbefore : before.length = headerSize + i * directoryEntrySize) :
    storeRecord (before ++ (List.replicate directoryEntrySize 0 ++ after)) i entry =
      before ++ (recordBytes i entry.decoded ++ after) := by
  have hname := (length_canonicalName hi).2
  simp only [directoryNameCapacity, directoryEntrySize] at hname hbefore
  simp only [storeRecord, storeNat, directoryEntrySize]
  rw [store_fill, store_fill, store_fill, store_fill, store_fill, store_fill]
  · simp only [recordBytes, EncodedEntry.decoded, List.append_assoc, length_toBytes]
    rfl
  all_goals simp [hbefore, Nat.add_assoc]
  all_goals omega

/-- Records are stored over the zeros of a directory. -/
lemma storeRecords_zeros {before : List UInt8} (after : List UInt8) {i : ℕ}
    {encoded : List EncodedEntry} (hi : i + encoded.length ≤ entryCount)
    (hbefore : before.length = headerSize + i * directoryEntrySize) :
    storeRecords i encoded
        (before ++ (List.replicate (encoded.length * directoryEntrySize) 0 ++ after)) =
      before ++ (directoryBytes i (encoded.map EncodedEntry.decoded) ++ after) := by
  induction encoded generalizing i before with
  | nil => simp [storeRecords, directoryBytes]
  | cons entry encoded ih =>
    rw [List.length_cons] at hi ⊢
    have hlt : i < entryCount := by omega
    rw [Nat.add_mul, Nat.one_mul, Nat.add_comm, ← List.replicate_append_replicate,
      List.append_assoc, storeRecords, storeRecord_zeros _ hlt entry hbefore, ← List.append_assoc,
      ih (by omega), List.map_cons, directoryBytes]
    · simp only [List.append_assoc]
    · rw [List.length_append, hbefore, length_recordBytes hlt, Nat.add_mul, Nat.one_mul,
        Nat.add_assoc]

/-- Records and payloads are stored over the zeros of a container; `mid` holds the payloads
before. -/
lemma storeEntries_zeros {source before mid : List UInt8} {i offset : ℕ}
    {encoded : List EncodedEntry} {payloads : List (List UInt8)}
    (hi : i + encoded.length ≤ entryCount)
    (hbefore : before.length = headerSize + i * directoryEntrySize)
    (hdecoded : encoded.map EncodedEntry.decoded = entriesOf offset payloads)
    (hdata : encoded.map (fun entry => window source entry.sourceOffset entry.size) = payloads)
    (hoffset : offset = before.length + encoded.length * directoryEntrySize + mid.length) :
    storeEntries source i encoded
        (before ++ (List.replicate (encoded.length * directoryEntrySize) 0 ++
          (mid ++ List.replicate payloads.flatten.length 0))) =
      before ++ (directoryBytes i (entriesOf offset payloads) ++ (mid ++ payloads.flatten)) := by
  induction encoded generalizing i offset before mid payloads with
  | nil =>
    obtain rfl : [] = payloads := hdata
    simp [storeEntries, directoryBytes, entriesOf]
  | cons entry encoded ih =>
    rw [List.map_cons] at hdata hdecoded
    subst hdata
    rw [List.length_cons] at hi hoffset ⊢
    obtain ⟨hentry, hrest⟩ := List.cons.inj hdecoded
    set payload := window source entry.sourceOffset entry.size
    set payloads := encoded.map fun entry => window source entry.sourceOffset entry.size
    obtain ⟨hpayloadOffset, hsize⟩ :
        entry.payloadOffset = offset ∧ entry.size = payload.length := by
      obtain ⟨h₁, h₂, -⟩ := DecodedEntry.mk.inj hentry
      exact ⟨h₁, h₂⟩
    have hlt : i < entryCount := by omega
    have hnext : (before ++ recordBytes i entry.decoded).length =
        headerSize + (i + 1) * directoryEntrySize := by
      rw [List.length_append, hbefore, length_recordBytes hlt, Nat.add_mul, Nat.one_mul,
        Nat.add_assoc]
    -- an entry without bytes is not stored, which is the same as storing none
    have hstore : ∀ bytes, (if entry.size ≠ 0 then
        store bytes entry.payloadOffset (window source entry.sourceOffset entry.size)
        else bytes) = store bytes entry.payloadOffset payload := by
      intro bytes
      split
      next => rfl
      next hzero =>
        have hempty : payload = [] := List.eq_nil_of_length_eq_zero (by omega)
        rw [hempty, store_nil]
    have hfill : store (before ++ (recordBytes i entry.decoded ++
        (List.replicate (encoded.length * directoryEntrySize) 0 ++
          (mid ++ List.replicate (payload.length + payloads.flatten.length) 0))))
        entry.payloadOffset payload =
        (before ++ recordBytes i entry.decoded) ++
          (List.replicate (encoded.length * directoryEntrySize) 0 ++
            ((mid ++ payload) ++ List.replicate payloads.flatten.length 0)) := by
      have hdone : entry.payloadOffset = (before ++ recordBytes i entry.decoded ++
          List.replicate (encoded.length * directoryEntrySize) 0 ++ mid).length := by
        simp only [List.length_append, List.length_replicate, length_recordBytes hlt]
        rw [hpayloadOffset, hoffset]
        simp only [Nat.add_mul, Nat.one_mul]
        omega
      have hfill := store_fill [] hdone (Nat.le_add_right payload.length payloads.flatten.length)
      simpa only [List.append_assoc, List.append_nil, Nat.add_sub_cancel_left] using hfill
    rw [Nat.add_mul, Nat.one_mul, Nat.add_comm, ← List.replicate_append_replicate,
      List.append_assoc, storeEntries, storeRecord_zeros _ hlt entry hbefore, List.flatten_cons,
      List.length_append]
    simp only [hstore]
    rw [hfill, ih (by omega) hnext hrest rfl, entriesOf, directoryBytes, hentry]
    · simp only [List.append_assoc]
    · rw [hoffset, List.length_append, length_recordBytes hlt, List.length_append]
      simp only [Nat.add_mul, Nat.one_mul]
      omega

/-! ### Encode -/

/-- The payloads that entries have in a buffer. -/
def payloadsIn (source : List UInt8) (entries : List ArchiveEntry) : List (List UInt8) :=
  entries.map fun entry => window source entry.dataIndex entry.getDataSize

/-- The names of `count` entries from `i` on. -/
def names (i count : ℕ) : List (List UInt8) := (List.range' i count).map canonicalName

/-- What `Encode` has checked of an entry. -/
lemma scanEntry_ok {source : List UInt8} {i containerSize : ℕ} {entry : ArchiveEntry}
    {seen : List ℕ} {previous : List EncodedEntry} {encoded : EncodedEntry}
    (h : scanEntry source i entry seen previous containerSize = .ok encoded) :
    entry.filename = canonicalName i ∧
      (window source entry.dataIndex entry.getDataSize).length = entry.getDataSize ∧
      PayloadOk i (window source entry.dataIndex entry.getDataSize) ∧
      encoded = ⟨entry.dataIndex, entry.getDataSize, containerSize,
        calculateCrc32 (window source entry.dataIndex entry.getDataSize)⟩ ∧
      containerSize + entry.getDataSize ≤ maxContainerSize := by
  unfold scanEntry at h
  obtain ⟨hknown, h⟩ := require_ok h
  obtain ⟨-, h⟩ := require_ok h
  obtain ⟨hindex, h⟩ := require_ok h
  obtain ⟨hlarge, h⟩ := require_ok h
  obtain ⟨hempty, h⟩ := require_ok h
  obtain ⟨hsource, h⟩ := require_ok h
  obtain ⟨hmarker, h⟩ := require_ok h
  obtain ⟨⟨⟩, -, h⟩ := bind_ok h
  obtain ⟨hlimit, h⟩ := require_ok h
  have hlength := length_window (checkedAdd_any hsource)
  refine ⟨(eq_canonicalName hindex (hindex ▸ hknown)).2, hlength, ⟨?_, ?_, hmarker⟩,
    (Except.ok.inj h).symm, checkedAdd_any hlimit⟩
  · rw [hlength]
    exact hlarge
  · rw [hlength]
    exact hempty

/-- What the first loop of `Encode` has found. -/
lemma scanEntries_ok {source : List UInt8} {i containerSize last : ℕ}
    {entries : List ArchiveEntry} {seen : List ℕ} {previous encoded : List EncodedEntry}
    (h : scanEntries source entries i seen previous containerSize = .ok (encoded, last))
    (hlimit : containerSize ≤ maxContainerSize) :
    entries.map (·.filename) = names i entries.length ∧
      entries.map ArchiveEntry.getDataSize = (payloadsIn source entries).map List.length ∧
      PayloadsOk i (payloadsIn source entries) ∧
      last = containerSize + (payloadsIn source entries).flatten.length ∧
      last ≤ maxContainerSize ∧
      ∃ own, encoded = previous ++ own ∧ own.length = entries.length ∧
        own.map EncodedEntry.decoded = entriesOf containerSize (payloadsIn source entries) ∧
        own.map (fun entry => window source entry.sourceOffset entry.size) =
          payloadsIn source entries := by
  induction entries generalizing i containerSize seen previous with
  | nil =>
    obtain ⟨rfl, rfl⟩ := Prod.mk.inj (Except.ok.inj h)
    exact ⟨rfl, rfl, trivial, rfl, hlimit, [], (List.append_nil _).symm, rfl, rfl, rfl⟩
  | cons entry entries ih =>
    unfold scanEntries at h
    obtain ⟨first, hfirst, h⟩ := bind_ok h
    obtain ⟨hname, hlength, hpayload, rfl, hlimit⟩ := scanEntry_ok hfirst
    obtain ⟨hnames, hsizes, hpayloads, rfl, hlast, own, rfl, hcount, hdecoded, hdata⟩ :=
      ih h hlimit
    refine ⟨?_, ?_, ⟨hpayload, hpayloads⟩, ?_, hlast, _ :: own, List.append_assoc _ _ _, ?_, ?_,
      ?_⟩
    · rw [List.map_cons, hname, hnames]
      rfl
    · show _ = (window source entry.dataIndex entry.getDataSize).length ::
        (payloadsIn source entries).map List.length
      rw [List.map_cons, hsizes, hlength]
    · show _ = containerSize + (window source entry.dataIndex entry.getDataSize ++
        (payloadsIn source entries).flatten).length
      rw [List.length_append, hlength, ← Nat.add_assoc]
    · rw [List.length_cons, List.length_cons, hcount]
    · show _ = entriesOf containerSize (window source entry.dataIndex entry.getDataSize ::
        payloadsIn source entries)
      rw [List.map_cons, hdecoded, entriesOf, hlength]
      rfl
    · rw [List.map_cons, hdata]
      rfl

/-- What `Encode` accepts are valid payloads under their names, and it writes their container. -/
lemma encode_ok {list : ArchiveEntryList} {bytes : List UInt8} (h : encode list = .ok bytes) :
    list.entries.map (·.filename) = names 0 entryCount ∧
      list.entries.map ArchiveEntry.getDataSize =
        (list.entries.map list.payload).map List.length ∧
      Valid (list.entries.map list.payload) ∧
      bytes = container (list.entries.map list.payload) := by
  obtain ⟨hcount, h⟩ := require_ok h
  obtain ⟨⟨encoded, containerSize⟩, hscan, h⟩ := bind_ok h
  obtain ⟨hnames, hsizes, hpayloads, rfl, hlimit, own, rfl, hlength, hdecoded, hdata⟩ :=
    scanEntries_ok hscan (by decide)
  rw [hcount] at hnames hlength
  refine ⟨hnames, hsizes, ⟨?_, hpayloads, hlimit⟩, ?_⟩
  · rw [List.length_map, hcount]
  show bytes = container (payloadsIn list.buffer list.entries)
  obtain rfl := Except.ok.inj h
  set payloads := payloadsIn list.buffer list.entries
  have hzeros : List.replicate (payloadStart + payloads.flatten.length) (0 : UInt8) =
      List.replicate headerSize 0 ++ (List.replicate (encoded.length * directoryEntrySize) 0 ++
        ([] ++ List.replicate payloads.flatten.length 0)) := by
    rw [List.nil_append, List.replicate_append_replicate, List.replicate_append_replicate, hlength,
      ← Nat.add_assoc]
    rfl
  have hheader := length_headerBytes (payloadStart + payloads.flatten.length)
  rw [hzeros, storeHeader_zeros,
    storeEntries_zeros (by omega) (by rw [hheader]; rfl) hdecoded hdata]
  · rfl
  · rw [hheader, hlength]
    rfl

/-! ### Encode after Decode -/

/-- Entries that follow each other in a buffer stand for the payloads it holds. -/
lemma payloadsIn_addEntries {source after : List UInt8} {i offset expected : ℕ}
    {payloads : List (List UInt8)} (hpayloads : PayloadsOk i payloads)
    (hdrop : source.drop offset = payloads.flatten ++ after) :
    payloadsIn source (addEntries i offset (entriesOf expected payloads)) = payloads := by
  induction payloads generalizing i offset expected with
  | nil => rfl
  | cons payload payloads ih =>
    obtain ⟨hpayload, hpayloads⟩ := hpayloads
    rw [List.flatten_cons, List.append_assoc] at hdrop
    have hsize : payload.length % 2 ^ 32 = payload.length :=
      Nat.mod_eq_of_lt (Nat.lt_of_le_of_lt hpayload.size (by decide))
    rw [entriesOf, addEntries, payloadsIn, List.map_cons]
    refine congr (congrArg List.cons ?_) (ih hpayloads (drop_add rfl hdrop))
    rw [ArchiveEntry.getDataSize, hsize, window, hdrop, List.take_left' rfl]

/-- An entry behind the ones before it meets none of them. -/
lemma checkOverlap_of_le {previous : List EncodedEntry} {name : List UInt8}
    {sourceOffset size : ℕ} (h : ∀ other ∈ previous, other.sourceOffset + other.size ≤ sourceOffset) :
    checkOverlap previous name sourceOffset size = .ok () := by
  have hnone : previous.findIdx? (·.meets sourceOffset (sourceOffset + size)) = none := by
    rw [List.findIdx?_eq_none_iff]
    intro other hother
    have hle := h other hother
    simp only [EncodedEntry.meets, Bool.and_eq_false_iff, decide_eq_false_iff_not]
    exact .inr (.inl (Nat.not_lt.mpr hle))
  rw [checkOverlap, hnone]

/-- `Encode` accepts packed entries. -/
lemma scanEntries_addEntries {source after : List UInt8} {i offset expected containerSize : ℕ}
    {payloads : List (List UInt8)} {seen : List ℕ} {previous : List EncodedEntry}
    (hi : i + payloads.length ≤ entryCount) (hseen : ∀ j ∈ seen, j < i)
    (hprevious : ∀ other ∈ previous, other.sourceOffset + other.size ≤ offset)
    (hsource : source.length < 2 ^ 64) (hoffset : offset ≤ source.length)
    (hpayloads : PayloadsOk i payloads)
    (hdrop : source.drop offset = payloads.flatten ++ after)
    (hlimit : containerSize + payloads.flatten.length ≤ maxContainerSize) :
    ∃ result, scanEntries source (addEntries i offset (entriesOf expected payloads)) i seen
      previous containerSize = .ok result := by
  induction payloads generalizing i offset expected containerSize seen previous with
  | nil => exact ⟨_, rfl⟩
  | cons payload payloads ih =>
    obtain ⟨hpayload, hpayloads⟩ := hpayloads
    rw [List.flatten_cons, List.append_assoc] at hdrop
    rw [List.flatten_cons, List.length_append, ← Nat.add_assoc] at hlimit
    rw [List.length_cons] at hi
    have hlt : i < entryCount := by omega
    have hlength := congrArg List.length hdrop
    simp only [List.length_drop, List.length_append] at hlength
    have hsize : payload.length % 2 ^ 32 = payload.length :=
      Nat.mod_eq_of_lt (Nat.lt_of_le_of_lt hpayload.size (by decide))
    have hwindow : window source offset payload.length = payload := by
      rw [window, hdrop, List.take_left' rfl]
    have hnotSeen : i ∉ seen := fun hmem => Nat.lt_irrefl i (hseen i hmem)
    have hentry : scanEntry source i ⟨canonicalName i, offset, payload.length⟩ seen previous
        containerSize = .ok ⟨offset, payload.length, containerSize, calculateCrc32 payload⟩ := by
      simp only [scanEntry, ArchiveEntry.getDataSize, hsize, hwindow,
        findCanonicalEntry_canonicalName hlt]
      rw [require_pos (Nat.ne_of_lt hlt), ok_bind,
        require_pos hnotSeen, ok_bind, require_pos trivial, ok_bind, require_pos hpayload.size, ok_bind, require_pos hpayload.empty, ok_bind,
        require_pos (any_checkedAdd (by omega) hsource), ok_bind, require_pos hpayload.marker,
        ok_bind, checkOverlap_of_le hprevious, ok_bind,
        require_pos (any_checkedAdd (by omega) (by decide)), ok_bind]
      rfl
    simp only [entriesOf, addEntries, scanEntries, hentry, ok_bind]
    refine ih (by omega) ?_ ?_ (by omega) hpayloads (drop_add rfl hdrop) hlimit
    · intro j hj
      rcases List.mem_cons.mp hj with rfl | hj
      · exact Nat.lt_succ_self j
      · exact Nat.lt_succ_of_lt (hseen j hj)
    · intro other hother
      rcases List.mem_append.mp hother with hother | hother
      · exact Nat.le_trans (hprevious other hother) (Nat.le_add_right _ _)
      · exact List.mem_singleton.mp hother ▸ Nat.le_refl _

lemma names_addEntries (i offset : ℕ) (entries : List DecodedEntry) :
    (addEntries i offset entries).map (·.filename) = names i entries.length := by
  induction entries generalizing i offset with
  | nil => rfl
  | cons entry entries ih =>
    rw [addEntries, List.map_cons, ih]
    rfl

lemma payloads_packed {payloads : List (List UInt8)} (h : Valid payloads) :
    (packed payloads).entries.map (packed payloads).payload = payloads :=
  payloadsIn_addEntries h.each (List.append_nil _).symm

/-- `Encode` writes the container of packed payloads. -/
lemma encode_packed {payloads : List (List UInt8)} (h : Valid payloads) :
    encode (packed payloads) = .ok (container payloads) := by
  have hlimit := Nat.le_trans (Nat.le_add_left _ _) h.limit
  have hcount : (packed payloads).entries.length = entryCount := by
    rw [← h.count, ← List.length_map (packed payloads).payload, payloads_packed h]
  obtain ⟨⟨encoded, last⟩, hscan⟩ : ∃ result, scanEntries (packed payloads).buffer
      (packed payloads).entries 0 [] [] payloadStart = .ok result :=
    scanEntries_addEntries (Nat.le_of_eq (by rw [h.count, Nat.zero_add]))
      (List.forall_mem_nil _) (List.forall_mem_nil _) (Nat.lt_of_le_of_lt hlimit (by decide))
      (Nat.zero_le _) h.each (List.append_nil _).symm h.limit
  obtain ⟨bytes, hbytes⟩ : ∃ bytes, encode (packed payloads) = .ok bytes := by
    rw [encode, require_pos hcount, ok_bind, hscan, ok_bind]
    exact ⟨_, rfl⟩
  have hcontainer := (encode_ok hbytes).2.2.2
  rw [payloads_packed h] at hcontainer
  rw [hbytes, hcontainer]

/-! ### EncodeFile -/

/-- The loop of `EncodeFile` on a provider of valid payloads. -/
lemma writeEntries_eq {provider : ℕ → Option (List UInt8)} {i containerSize : ℕ}
    {payloads : List (List UInt8)} (file : List UInt8) (encoded : List EncodedEntry)
    (hprovider : ∀ k payload, payloads[k]? = some payload → provider (i + k) = some payload)
    (hpayloads : PayloadsOk i payloads)
    (hlimit : containerSize + payloads.flatten.length ≤ maxContainerSize) :
    ∃ own, writeEntries provider payloads.length i file encoded containerSize =
        .ok (file ++ payloads.flatten, encoded ++ own,
          containerSize + payloads.flatten.length) ∧
      own.map EncodedEntry.decoded = entriesOf containerSize payloads := by
  induction payloads generalizing i containerSize file encoded with
  | nil => exact ⟨[], by simp [writeEntries]; rfl, rfl⟩
  | cons payload payloads ih =>
    obtain ⟨hpayload, hpayloads⟩ := hpayloads
    rw [List.flatten_cons, List.length_append, ← Nat.add_assoc] at hlimit
    have hrest : ∀ k payload, payloads[k]? = some payload → provider (i + 1 + k) = some payload := by
      intro k payload hk
      rw [Nat.add_assoc, Nat.add_comm 1]
      exact hprovider (k + 1) payload hk
    set entry : EncodedEntry := ⟨0, payload.length, containerSize, calculateCrc32 payload⟩
    obtain ⟨own, hown, hdecoded⟩ :=
      ih (file ++ payload) (encoded ++ [entry]) hrest hpayloads hlimit
    refine ⟨entry :: own, ?_, ?_⟩
    · rw [List.length_cons, writeEntries, ← Nat.add_zero i, hprovider 0 payload rfl]
      simp only [Nat.add_zero]
      rw [require_pos hpayload.size, ok_bind, require_pos hpayload.empty, ok_bind,
        require_pos hpayload.marker, ok_bind,
        require_pos (any_checkedAdd (by omega) (by decide)), ok_bind, hown, List.append_assoc,
        List.append_assoc, List.flatten_cons, List.length_append, Nat.add_assoc]
      rfl
    · rw [List.map_cons, hdecoded]
      rfl

/-- `EncodeFile` writes the container of the payloads of its provider. -/
lemma encodeFile_eq {provider : ℕ → Option (List UInt8)} {payloads : List (List UInt8)}
    (h : Valid payloads)
    (hprovider : ∀ k payload, payloads[k]? = some payload → provider k = some payload) :
    encodeFile provider = .ok (container payloads) := by
  obtain ⟨own, hwrite, hdecoded⟩ := writeEntries_eq (List.replicate payloadStart 0) []
    (fun k payload hk => by rw [Nat.zero_add]; exact hprovider k payload hk) h.each h.limit
  have hcount : own.length = entryCount := by
    rw [← List.length_map EncodedEntry.decoded, hdecoded, length_entriesOf, h.count]
  have hheader := length_headerBytes (payloadStart + payloads.flatten.length)
  have hplaceholder : List.replicate payloadStart (0 : UInt8) =
      List.replicate headerSize 0 ++ (List.replicate (own.length * directoryEntrySize) 0 ++ []) := by
    rw [List.append_nil, List.replicate_append_replicate, hcount]
    rfl
  rw [h.count] at hwrite
  rw [encodeFile, hwrite, ok_bind]
  show (require ((List.replicate payloadStart (0 : UInt8) ++ payloads.flatten).length =
    payloadStart + payloads.flatten.length) _ >>= _) = _
  rw [require_pos (by rw [List.length_append, List.length_replicate]), ok_bind]
  have hdirectory : storeRecords 0 own (storeHeader (List.replicate payloadStart 0)
      (payloadStart + payloads.flatten.length)) =
        headerBytes (payloadStart + payloads.flatten.length) ++
          directoryBytes 0 (entriesOf payloadStart payloads) := by
    rw [hplaceholder, storeHeader_zeros,
      storeRecords_zeros [] (by omega) (by rw [hheader]; rfl), hdecoded, List.append_nil]
  show Except.ok (store (List.replicate payloadStart 0 ++ payloads.flatten) 0
    (storeRecords 0 own _)) = _
  have hlength : (headerBytes (payloadStart + payloads.flatten.length) ++
      directoryBytes 0 (entriesOf payloadStart payloads)).length = payloadStart := by
    have hentries := length_entriesOf payloadStart payloads
    rw [h.count] at hentries
    rw [List.length_append, hheader, length_directoryBytes 0 _ (by omega), hentries]
    rfl
  have hstore := store_append [] (List.replicate payloadStart 0) payloads.flatten
    (headerBytes (payloadStart + payloads.flatten.length) ++
      directoryBytes 0 (entriesOf payloadStart payloads)) rfl
    (by rw [hlength, List.length_replicate])
  rw [List.nil_append, List.nil_append, List.length_nil, List.append_assoc] at hstore
  rw [hdirectory, hstore, container]

end VitaSX2.SaveStateRaw
