/-
The readers accept the containers of valid payloads, and nothing else.
-/
import Mathlib.Tactic.Set
import VitaSX2.SaveState.Container

namespace VitaSX2.SaveStateRaw

open LittleEndian

/-! ### The directory -/

/-- What `ParseContainerDirectory` has checked of the entries from `i` on, which start at
`expected` and end at `last`. -/
def Chained (totalSize : ℕ) : (i expected : ℕ) → List DecodedEntry → ℕ → Prop
  | _, expected, [], last => expected = last
  | i, expected, entry :: entries, last =>
    (entry.payloadOffset = expected ∧ entry.size ≤ maxEntrySize ∧
      (entry.size ≠ 0 ∨ entryMayBeEmpty i = true) ∧ expected + entry.size ≤ totalSize) ∧
    Chained totalSize (i + 1) (expected + entry.size) entries last

lemma checkedAdd_any {lhs rhs bound : ℕ} (h : (checkedAdd lhs rhs).any (· ≤ bound) = true) :
    lhs + rhs ≤ bound := by
  unfold checkedAdd at h
  split at h
  next => cases h
  next => simpa using h

lemma any_checkedAdd {lhs rhs bound : ℕ} (h : lhs + rhs ≤ bound) (hbound : bound < 2 ^ 64) :
    (checkedAdd lhs rhs).any (· ≤ bound) = true := by
  unfold checkedAdd
  rw [if_neg (by omega)]
  simpa using h

lemma eq_replicate_zero {bytes : List UInt8} (h : ∀ byte ∈ bytes, byte = 0) :
    bytes = List.replicate bytes.length 0 :=
  List.eq_replicate_iff.mpr ⟨rfl, h⟩

/-- An accepted record is the record of its entry. -/
lemma parseEntry_ok {bytes : List UInt8} {totalSize i expected : ℕ} {seen : List ℕ}
    {entry : DecodedEntry} (h : parseEntry bytes totalSize i seen expected = .ok entry) :
    i < entryCount ∧
      bytes.drop (headerSize + i * directoryEntrySize) =
        recordBytes i entry ++ bytes.drop (headerSize + (i + 1) * directoryEntrySize) ∧
      entry.payloadOffset = expected ∧ entry.size ≤ maxEntrySize ∧
      (entry.size ≠ 0 ∨ entryMayBeEmpty i = true) ∧ expected + entry.size ≤ totalSize := by
  unfold parseEntry at h
  obtain ⟨entryOffset, hoffset, h⟩ := bind_ok h
  obtain ⟨entrySize, hsize, h⟩ := bind_ok h
  obtain ⟨crc, hcrc, h⟩ := bind_ok h
  obtain ⟨nameSize, hnameSize, h⟩ := bind_ok h
  obtain ⟨flags, hflags, h⟩ := bind_ok h
  obtain ⟨hnoFlags, h⟩ := require_ok h
  obtain ⟨hnameBound, h⟩ := require_ok h
  obtain ⟨name, hname, h⟩ := bind_ok h
  obtain ⟨unused, hunused, h⟩ := bind_ok h
  obtain ⟨hzero, h⟩ := require_ok h
  obtain ⟨hknown, h⟩ := require_ok h
  obtain ⟨-, h⟩ := require_ok h
  obtain ⟨hindex, h⟩ := require_ok h
  obtain ⟨hlarge, h⟩ := require_ok h
  obtain ⟨hempty, h⟩ := require_ok h
  obtain ⟨-, h⟩ := require_ok h
  obtain ⟨hbounds, h⟩ := require_ok h
  obtain ⟨hoverlap, h⟩ := require_ok h
  obtain ⟨hgap, h⟩ := require_ok h
  obtain rfl := Except.ok.inj h
  subst hnoFlags
  obtain rfl : expected = entryOffset := Nat.le_antisymm hoverlap hgap
  obtain ⟨hi, rfl⟩ := eq_canonicalName hindex (hindex ▸ hknown)
  refine ⟨hi, ?_, rfl, hlarge, hempty, checkedAdd_any hbounds⟩
  obtain ⟨hlength, hname⟩ := readBytes_ok hname
  obtain ⟨hlength', hunused⟩ := readBytes_ok hunused
  subst hlength
  have hzeros := eq_replicate_zero hzero
  rw [hlength'] at hzeros
  have hcrc' : (BitVec.ofNat 32 crc).toNat = crc := by
    rw [BitVec.toNat_ofNat]
    exact Nat.mod_eq_of_lt (load_ok hcrc).1
  -- the fields one after the other
  rw [(load_ok hoffset).2, (load_ok hsize).2, (load_ok hcrc).2, (load_ok hnameSize).2,
    (load_ok hflags).2, hname, hunused, hzeros]
  have hnext : headerSize + i * directoryEntrySize + 24 + (canonicalName i).length +
      (directoryNameCapacity - (canonicalName i).length) =
        headerSize + (i + 1) * directoryEntrySize := by
    have hbound := (length_canonicalName hi).2
    simp only [directoryNameCapacity, directoryEntrySize] at *
    omega
  simp only [recordBytes, hcrc', hnext, List.append_assoc]

/-- The record of an entry is accepted. -/
lemma parseEntry_of_drop {bytes after : List UInt8} {totalSize i : ℕ} {seen : List ℕ}
    {entry : DecodedEntry} (hi : i < entryCount) (hseen : i ∉ seen)
    (hdrop : bytes.drop (headerSize + i * directoryEntrySize) = recordBytes i entry ++ after)
    (hstart : payloadStart ≤ entry.payloadOffset) (hsize : entry.size ≤ maxEntrySize)
    (hempty : entry.size ≠ 0 ∨ entryMayBeEmpty i = true)
    (hbounds : entry.payloadOffset + entry.size ≤ totalSize) (htotal : totalSize < 2 ^ 64) :
    parseEntry bytes totalSize i seen entry.payloadOffset = .ok entry := by
  obtain ⟨hpos, hcapacity⟩ := length_canonicalName hi
  have hlength : headerSize + i * directoryEntrySize + directoryEntrySize ≤ bytes.length := by
    have hlength := congrArg List.length hdrop
    rw [List.length_drop, List.length_append, length_recordBytes hi] at hlength
    simp only [directoryEntrySize] at *
    omega
  set descriptor := headerSize + i * directoryEntrySize
  simp only [directoryEntrySize, directoryNameCapacity] at hlength hcapacity
  simp only [recordBytes, List.append_assoc] at hdrop
  -- the fields one after the other
  have hdrop₁ := drop_add (length_toBytes 8 _) hdrop
  have hdrop₂ := drop_add (length_toBytes 8 _) hdrop₁
  have hdrop₃ := drop_add (length_toBytes 4 _) hdrop₂
  have hdrop₄ := drop_add (length_toBytes 2 _) hdrop₃
  have hdrop₅ := drop_add (length_toBytes 2 _) hdrop₄
  have hdrop₆ := drop_add (rfl : (canonicalName i).length = _) hdrop₅
  have hoffset : load 8 bytes descriptor = .ok entry.payloadOffset :=
    load_of_drop (by omega) (by omega) hdrop
  have hentrySize : load 8 bytes (descriptor + 8) = .ok entry.size :=
    load_of_drop (by omega) (by omega) hdrop₁
  have hcrc : load 4 bytes (descriptor + 16) = .ok entry.crc32.toNat :=
    load_of_drop entry.crc32.isLt (by omega) hdrop₂
  have hnameSize : load 2 bytes (descriptor + 20) = .ok (canonicalName i).length :=
    load_of_drop (by omega) (by omega) hdrop₃
  have hflags : load 2 bytes (descriptor + 22) = .ok 0 :=
    load_of_drop (by decide) (by omega) hdrop₄
  have hname : readBytes bytes (descriptor + 24) (canonicalName i).length =
      .ok (canonicalName i) := readBytes_of_drop rfl (by omega) hdrop₅
  have hunused : readBytes bytes (descriptor + 24 + (canonicalName i).length)
      (directoryNameCapacity - (canonicalName i).length) =
        .ok (List.replicate (directoryNameCapacity - (canonicalName i).length) 0) :=
    readBytes_of_drop List.length_replicate (by omega) hdrop₆
  have hfound := findCanonicalEntry_canonicalName hi
  unfold parseEntry
  simp only [show headerSize + i * directoryEntrySize = descriptor from rfl, hoffset, hentrySize,
    hcrc, hnameSize, hflags, hname, hunused, ok_bind, hfound]
  rw [require_pos trivial, ok_bind, require_pos ⟨hpos, hcapacity⟩, ok_bind,
    require_pos fun byte hbyte => List.eq_of_mem_replicate hbyte, ok_bind,
    require_pos (Nat.ne_of_lt hi), ok_bind, require_pos hseen, ok_bind, require_pos trivial,
    ok_bind, require_pos hsize, ok_bind, require_pos hempty, ok_bind, require_pos hstart, ok_bind,
    require_pos, ok_bind, require_pos (Nat.le_refl _), ok_bind, require_pos (Nat.le_refl _),
    ok_bind]
  · show Except.ok (⟨_, _, BitVec.ofNat 32 entry.crc32.toNat⟩ : DecodedEntry) = .ok entry
    rw [BitVec.ofNat_toNat, BitVec.setWidth_eq]
  · unfold checkedAdd
    rw [if_neg (by omega)]
    simpa using hbounds

/-- Accepted records are the records of their entries, which follow each other. -/
lemma parseEntries_ok {bytes : List UInt8} {totalSize count i expected last : ℕ} {seen : List ℕ}
    {entries : List DecodedEntry}
    (h : parseEntries bytes totalSize count i seen expected = .ok (entries, last)) :
    entries.length = count ∧ Chained totalSize i expected entries last ∧
      bytes.drop (headerSize + i * directoryEntrySize) =
        directoryBytes i entries ++ bytes.drop (headerSize + (i + count) * directoryEntrySize) := by
  induction count generalizing i seen expected entries with
  | zero =>
    obtain ⟨rfl, rfl⟩ := Prod.mk.inj (Except.ok.inj h)
    exact ⟨rfl, rfl, rfl⟩
  | succ count ih =>
    unfold parseEntries at h
    obtain ⟨entry, hentry, h⟩ := bind_ok h
    obtain ⟨⟨rest, last'⟩, hrest, h⟩ := bind_ok h
    obtain ⟨rfl, rfl⟩ := Prod.mk.inj (Except.ok.inj h)
    obtain ⟨-, hrecord, rfl, hsize, hempty, hbound⟩ := parseEntry_ok hentry
    obtain ⟨rfl, hchained, hdirectory⟩ := ih hrest
    refine ⟨rfl, ⟨⟨rfl, hsize, hempty, hbound⟩, hchained⟩, ?_⟩
    rw [hrecord, hdirectory, directoryBytes, List.append_assoc, Nat.add_right_comm, Nat.add_assoc i]

/-- The records of entries that follow each other are accepted. -/
lemma parseEntries_of_drop {bytes after : List UInt8} {totalSize i expected last : ℕ}
    {seen : List ℕ} {entries : List DecodedEntry} (hi : i + entries.length ≤ entryCount)
    (hseen : ∀ j ∈ seen, j < i) (hstart : payloadStart ≤ expected) (htotal : totalSize < 2 ^ 64)
    (hchained : Chained totalSize i expected entries last)
    (hdrop : bytes.drop (headerSize + i * directoryEntrySize) =
      directoryBytes i entries ++ after) :
    parseEntries bytes totalSize entries.length i seen expected = .ok (entries, last) := by
  induction entries generalizing i seen expected with
  | nil =>
    obtain rfl : expected = last := hchained
    rfl
  | cons entry entries ih =>
    obtain ⟨⟨rfl, hsize, hempty, hbound⟩, hchained⟩ := hchained
    rw [List.length_cons] at hi
    rw [directoryBytes, List.append_assoc] at hdrop
    have hlt : i < entryCount := by omega
    have hnext := drop_add (length_recordBytes hlt entry) hdrop
    rw [Nat.add_assoc, ← Nat.succ_mul] at hnext
    rw [List.length_cons, parseEntries,
      parseEntry_of_drop hlt (fun hmem => Nat.lt_irrefl i (hseen i hmem)) hdrop hstart hsize hempty
        hbound htotal, ok_bind,
      ih (by omega) _ (by omega) hchained hnext, ok_bind]
    · rfl
    · intro j hj
      rcases List.mem_cons.mp hj with rfl | hj
      · exact Nat.lt_succ_self j
      · exact Nat.lt_succ_of_lt (hseen j hj)

/-! ### The container -/

/-- An accepted input has the size and the header of a container, and the records of entries
that fill it. -/
lemma parseContainerDirectory_ok {bytes : List UInt8} {actualSize : ℕ}
    {entries : List DecodedEntry} (h : parseContainerDirectory bytes actualSize = .ok entries) :
    payloadStart ≤ actualSize ∧ actualSize ≤ maxContainerSize ∧ entries.length = entryCount ∧
      Chained actualSize 0 payloadStart entries actualSize ∧
      bytes = headerBytes actualSize ++ (directoryBytes 0 entries ++ bytes.drop payloadStart) := by
  unfold parseContainerDirectory at h
  obtain ⟨-, h⟩ := require_ok h
  obtain ⟨start, hmagic, h⟩ := bind_ok h
  obtain ⟨hstart₁, h⟩ := require_ok h
  obtain ⟨format, hformat, h⟩ := bind_ok h
  obtain ⟨header, hheader, h⟩ := bind_ok h
  obtain ⟨save, hsave, h⟩ := bind_ok h
  obtain ⟨portable, hportable, h⟩ := bind_ok h
  obtain ⟨count, hcount, h⟩ := bind_ok h
  obtain ⟨reserved, hreserved, h⟩ := bind_ok h
  obtain ⟨directoryOffset, hdirectoryOffset, h⟩ := bind_ok h
  obtain ⟨payloadOffset, hpayloadOffset, h⟩ := bind_ok h
  obtain ⟨totalSize, htotalSize, h⟩ := bind_ok h
  obtain ⟨hformat₁, h⟩ := require_ok h
  obtain ⟨hheader₁, h⟩ := require_ok h
  obtain ⟨hsave₁, h⟩ := require_ok h
  obtain ⟨hportable₁, h⟩ := require_ok h
  obtain ⟨hreserved₁, h⟩ := require_ok h
  obtain ⟨hcount₁, h⟩ := require_ok h
  obtain ⟨hdirectoryOffset₁, h⟩ := require_ok h
  obtain ⟨hpayloadOffset₁, h⟩ := require_ok h
  obtain ⟨hstart, h⟩ := require_ok h
  obtain ⟨hlimit, h⟩ := require_ok h
  obtain ⟨htruncated, h⟩ := require_ok h
  obtain ⟨htrailing, h⟩ := require_ok h
  obtain ⟨-, h⟩ := require_ok h
  obtain ⟨⟨rest, last⟩, hentries, h⟩ := bind_ok h
  obtain ⟨hlast, h⟩ := require_ok h
  obtain rfl := Except.ok.inj h
  subst hstart₁ hformat₁ hheader₁ hsave₁ hportable₁ hreserved₁ hcount₁ hdirectoryOffset₁
    hpayloadOffset₁ hlast
  obtain rfl : last = actualSize := Nat.le_antisymm htruncated htrailing
  obtain ⟨hlength, hchained, hdirectory⟩ := parseEntries_ok hentries
  refine ⟨hstart, hlimit, hlength, hchained, ?_⟩
  rw [Nat.zero_mul, Nat.zero_add] at hdirectory
  have hfirst : bytes = magic ++ bytes.drop 8 := (readBytes_ok hmagic).2
  -- the fields one after the other
  have hfields : bytes = headerBytes last ++ bytes.drop headerSize := by
    conv =>
      lhs
      rw [hfirst, (load_ok hformat).2, (load_ok hheader).2, (load_ok hsave).2,
        (load_ok hportable).2, (load_ok hcount).2, (load_ok hreserved).2,
        (load_ok hdirectoryOffset).2, (load_ok hpayloadOffset).2, (load_ok htotalSize).2]
    simp only [headerBytes, List.append_assoc]
    rfl
  rw [← show headerSize + entryCount * directoryEntrySize = payloadStart from rfl]
  exact hfields.trans (congrArg (headerBytes last ++ ·) hdirectory)

/-- The header and the records of entries that fill the container are accepted. -/
lemma parseContainerDirectory_of_eq {bytes : List UInt8} {totalSize : ℕ}
    {entries : List DecodedEntry} (after : List UInt8) (hstart : payloadStart ≤ totalSize)
    (hlimit : totalSize ≤ maxContainerSize) (hcount : entries.length = entryCount)
    (hchained : Chained totalSize 0 payloadStart entries totalSize)
    (hbytes : bytes = headerBytes totalSize ++ (directoryBytes 0 entries ++ after)) :
    parseContainerDirectory bytes totalSize = .ok entries := by
  have htotal : totalSize < 2 ^ 64 := Nat.lt_of_le_of_lt hlimit (by decide)
  have hheaderEnd : bytes.drop headerSize = directoryBytes 0 entries ++ after := by
    rw [hbytes, List.drop_left' (length_headerBytes _)]
  have hlength : payloadStart ≤ bytes.length := by
    rw [hbytes, List.length_append, List.length_append, length_headerBytes,
      length_directoryBytes 0 entries (by omega), hcount]
    exact Nat.add_le_add_left (Nat.le_add_right _ _) _
  have hfull : 1080 ≤ bytes.length := hlength
  -- the fields one after the other
  have hdrop₀ : bytes.drop 0 = bytes := List.drop_zero
  conv at hdrop₀ =>
    rhs
    rw [hbytes, headerBytes]
    simp only [List.append_assoc]
  have hdrop₁ := drop_add (rfl : magic.length = 8) hdrop₀
  have hdrop₂ := drop_add (length_toBytes 4 _) hdrop₁
  have hdrop₃ := drop_add (length_toBytes 4 _) hdrop₂
  have hdrop₄ := drop_add (length_toBytes 4 _) hdrop₃
  have hdrop₅ := drop_add (length_toBytes 4 _) hdrop₄
  have hdrop₆ := drop_add (length_toBytes 4 _) hdrop₅
  have hdrop₇ := drop_add (length_toBytes 4 _) hdrop₆
  have hdrop₈ := drop_add (length_toBytes 8 _) hdrop₇
  have hdrop₉ := drop_add (length_toBytes 8 _) hdrop₈
  have hmagic : readBytes bytes 0 8 = .ok magic := readBytes_of_drop rfl (by omega) hdrop₀
  have hformat : load 4 bytes 8 = .ok formatVersion :=
    load_of_drop (by decide) (by omega) hdrop₁
  have hheader : load 4 bytes 12 = .ok headerSize :=
    load_of_drop (by decide) (by omega) hdrop₂
  have hsave : load 4 bytes 16 = .ok saveVersion :=
    load_of_drop (by decide) (by omega) hdrop₃
  have hportable : load 4 bytes 20 = .ok portablePayloadVersion :=
    load_of_drop (by decide) (by omega) hdrop₄
  have hentryCount : load 4 bytes 24 = .ok entryCount :=
    load_of_drop (by decide) (by omega) hdrop₅
  have hreserved : load 4 bytes 28 = .ok 0 := load_of_drop (by decide) (by omega) hdrop₆
  have hdirectoryOffset : load 8 bytes 32 = .ok headerSize :=
    load_of_drop (by decide) (by omega) hdrop₇
  have hpayloadOffset : load 8 bytes 40 = .ok payloadStart :=
    load_of_drop (by decide) (by omega) hdrop₈
  have htotalSize : load 8 bytes 48 = .ok totalSize := load_of_drop htotal (by omega) hdrop₉
  have hentries := parseEntries_of_drop (by omega) (List.forall_mem_nil _) (Nat.le_refl _) htotal
    hchained (by rw [Nat.zero_mul, Nat.add_zero]; exact hheaderEnd)
  rw [hcount] at hentries
  unfold parseContainerDirectory
  rw [require_pos ⟨Nat.le_trans (by decide) hstart, Nat.le_trans (by decide) hlength⟩, ok_bind,
    hmagic, ok_bind, require_pos rfl, ok_bind, hformat, ok_bind, hheader, ok_bind, hsave, ok_bind,
    hportable, ok_bind, hentryCount, ok_bind, hreserved, ok_bind, hdirectoryOffset, ok_bind,
    hpayloadOffset, ok_bind, htotalSize, ok_bind, require_pos rfl, ok_bind, require_pos rfl,
    ok_bind, require_pos rfl, ok_bind, require_pos rfl, ok_bind, require_pos rfl, ok_bind,
    require_pos rfl, ok_bind, require_pos rfl, ok_bind, require_pos rfl, ok_bind,
    require_pos hstart, ok_bind, require_pos hlimit, ok_bind, require_pos (Nat.le_refl _), ok_bind,
    require_pos (Nat.le_refl _), ok_bind, require_pos hlength, ok_bind, hentries, ok_bind]
  show (require (totalSize = totalSize) _ >>= _) = _
  rw [require_pos rfl, ok_bind]
  rfl

/-! ### Bounds -/

variable {α β : Type}

lemma bind_inside {x : Except Failure α} {f : α → Except Failure β} (hx : x ≠ .error .outside)
    (hf : ∀ a, f a ≠ .error .outside) : (x >>= f) ≠ .error .outside := by
  cases x with
  | error failure =>
    intro h
    exact hx (congrArg _ (Except.error.inj h))
  | ok a => exact hf a

lemma require_inside {p : Prop} [Decidable p] {failure : Failure} {f : Unit → Except Failure β}
    (hfailure : failure ≠ .outside) (hf : p → f () ≠ .error .outside) :
    (require p failure >>= f) ≠ .error .outside := by
  unfold require
  split
  next hp => exact hf hp
  next =>
    intro h
    exact hfailure (Except.error.inj h)

lemma readBytes_inside {bytes : List UInt8} {offset count : ℕ} (h : offset + count ≤ bytes.length) :
    readBytes bytes offset count ≠ .error .outside := by
  rw [readBytes, if_pos h]
  intro h
  cases h

lemma load_inside {bytes : List UInt8} {offset count : ℕ} (h : offset + count ≤ bytes.length) :
    load count bytes offset ≠ .error .outside :=
  bind_inside (readBytes_inside h) fun _ => nofun

/-- A record is read inside of the directory, whatever it holds. -/
lemma parseEntry_inside {bytes : List UInt8} {totalSize i expected : ℕ} {seen : List ℕ}
    (h : headerSize + (i + 1) * directoryEntrySize ≤ bytes.length) :
    parseEntry bytes totalSize i seen expected ≠ .error .outside := by
  have hend : headerSize + i * directoryEntrySize + 64 ≤ bytes.length := by
    simp only [directoryEntrySize] at *
    omega
  unfold parseEntry
  refine bind_inside (load_inside (by omega)) fun entryOffset => ?_
  refine bind_inside (load_inside (by omega)) fun entrySize => ?_
  refine bind_inside (load_inside (by omega)) fun crc => ?_
  refine bind_inside (load_inside (by omega)) fun nameSize => ?_
  refine bind_inside (load_inside (by omega)) fun flags => ?_
  refine require_inside (fun h => by cases h) fun _ => ?_
  refine require_inside (fun h => by cases h) fun hname => ?_
  -- the name has been checked against the capacity before it is read
  simp only [directoryNameCapacity] at *
  refine bind_inside (readBytes_inside (by omega)) fun name => ?_
  refine bind_inside (readBytes_inside (by omega)) fun unused => ?_
  iterate 10 refine require_inside (fun h => by cases h) fun _ => ?_
  intro h
  cases h

lemma parseEntries_inside {bytes : List UInt8} {totalSize count i expected : ℕ} {seen : List ℕ}
    (h : headerSize + (i + count) * directoryEntrySize ≤ bytes.length) :
    parseEntries bytes totalSize count i seen expected ≠ .error .outside := by
  induction count generalizing i seen expected with
  | zero => exact nofun
  | succ count ih =>
    refine bind_inside (parseEntry_inside (Nat.le_trans ?_ h)) fun entry => ?_
    · exact Nat.add_le_add_left (Nat.mul_le_mul_right _ (by omega)) _
    · refine bind_inside (ih ?_) fun _ => nofun
      rw [Nat.add_right_comm, Nat.add_assoc i]
      exact h

/-- `ParseContainerDirectory` never reads outside of its input. -/
lemma parseContainerDirectory_inside (bytes : List UInt8) (actualSize : ℕ) :
    parseContainerDirectory bytes actualSize ≠ .error .outside := by
  unfold parseContainerDirectory
  refine require_inside nofun fun ⟨_, hheader⟩ => ?_
  have hlength : 56 ≤ bytes.length := hheader
  refine bind_inside (readBytes_inside (by omega)) fun start => require_inside nofun fun _ => ?_
  refine bind_inside (load_inside (by omega)) fun format => ?_
  refine bind_inside (load_inside (by omega)) fun header => ?_
  refine bind_inside (load_inside (by omega)) fun save => ?_
  refine bind_inside (load_inside (by omega)) fun portable => ?_
  refine bind_inside (load_inside (by omega)) fun count => ?_
  refine bind_inside (load_inside (by omega)) fun reserved => ?_
  refine bind_inside (load_inside (by omega)) fun directoryOffset => ?_
  refine bind_inside (load_inside (by omega)) fun payloadOffset => ?_
  refine bind_inside (load_inside (by omega)) fun totalSize => ?_
  iterate 12 refine require_inside nofun fun _ => ?_
  refine require_inside nofun fun hdirectory => ?_
  refine bind_inside (parseEntries_inside ?_) fun _ => require_inside nofun fun _ => nofun
  rw [Nat.zero_add]
  exact hdirectory

end VitaSX2.SaveStateRaw
