/-
The universal form of a VU1 program (`UniversalMicroProgram`): one record for each pair of
the micro memory, with the two words of the pair and what the analysis knows of it.

The analysis of a pair is a parameter.  It keeps the words it is given, so a program has
the words of the image it was encoded from, and it is the only program of that image.
-/
import VitaSX2.Vu1.PairPlan

namespace VitaSX2.MicroCache

open Vu1 (Micro readWord)

/-! ### One pair -/

/-- `GpuPairPlan`, as far as it is encoded. -/
structure GpuPairPlan where
  upper : BitVec 32 := 0
  lower : BitVec 32 := 0
  upperViRead : BitVec 32 := 0
  upperViWrite : BitVec 32 := 0
  lowerViRead : BitVec 32 := 0
  lowerViWrite : BitVec 32 := 0
  upperCycles : ℤ := 0
  lowerCycles : ℤ := 0
  upperPipe : BitVec 8 := 0
  lowerPipe : BitVec 8 := 0
  viBackupReg : BitVec 8 := 0
  upperKind : BitVec 8 := 0
  lowerKind : BitVec 8 := 0
  upperVfWrite : BitVec 8 := 0
  upperVfWriteMask : BitVec 8 := 0
  upperVfRead0 : BitVec 8 := 0
  upperVfRead0Mask : BitVec 8 := 0
  upperVfRead1 : BitVec 8 := 0
  upperVfRead1Mask : BitVec 8 := 0
  lowerVfWrite : BitVec 8 := 0
  lowerVfWriteMask : BitVec 8 := 0
  lowerVfRead0 : BitVec 8 := 0
  lowerVfRead0Mask : BitVec 8 := 0
  lowerVfRead1 : BitVec 8 := 0
  lowerVfRead1Mask : BitVec 8 := 0
  vfSnapshotReg : BitVec 8 := 0
  execUpper : Bool := false
  execLower : Bool := false
  immediateLower : Bool := false
  ebit : Bool := false
  mflag : Bool := false
  dflag : Bool := false
  tflag : Bool := false
  clipSnapshot : Bool := false
  lowerDiscardedByUpper : Bool := false
  viBackupWrite : Bool := false
  instantQpProducer : Bool := false
  instantQpWait : Bool := false

/-- `UniversalPairMicroOp`. -/
structure UniversalPairMicroOp where
  upper : BitVec 32 := 0
  lower : BitVec 32 := 0
  control : BitVec 32 := 0
  upperViRead : BitVec 32 := 0
  upperViWrite : BitVec 32 := 0
  lowerViRead : BitVec 32 := 0
  lowerViWrite : BitVec 32 := 0
  upperVfAccess0 : BitVec 32 := 0
  upperVfAccess1 : BitVec 32 := 0
  lowerVfAccess0 : BitVec 32 := 0
  lowerVfAccess1 : BitVec 32 := 0
deriving DecidableEq, Repr

/-- A control bit under a condition. -/
def controlBit (condition : Bool) (bit : ℕ) : BitVec 32 :=
  if condition then 1#32 <<< bit else 0

/-- `EncodeControl`. -/
def encodeControl (plan : GpuPairPlan) : BitVec 32 :=
  plan.upperKind.setWidth 32 &&& 0x7f ||| (plan.lowerKind.setWidth 32 &&& 0x7f) <<< 7 |||
    controlBit true 14 ||| controlBit plan.execUpper 15 ||| controlBit plan.execLower 16 |||
    controlBit plan.immediateLower 17 ||| controlBit plan.ebit 18 ||| controlBit plan.mflag 19 |||
    controlBit plan.dflag 20 ||| controlBit plan.tflag 21 ||| controlBit plan.clipSnapshot 22 |||
    controlBit plan.lowerDiscardedByUpper 23 ||| (plan.vfSnapshotReg.setWidth 32 &&& 0x1f) <<< 24 |||
    controlBit plan.instantQpProducer 29 ||| controlBit plan.instantQpWait 30 |||
    controlBit plan.viBackupWrite 31

/-- Four bytes of a record, the first one lowest. -/
def packBytes (byte0 byte1 byte2 byte3 : BitVec 8) : BitVec 32 := byte3 ++ byte2 ++ byte1 ++ byte0

/-- `PackVfAccess0`. -/
def packVfAccess0 (plan : GpuPairPlan) (upper : Bool) : BitVec 32 :=
  if upper then
    packBytes plan.upperVfWrite plan.upperVfWriteMask plan.upperVfRead0 plan.upperVfRead0Mask
  else packBytes plan.lowerVfWrite plan.lowerVfWriteMask plan.lowerVfRead0 plan.lowerVfRead0Mask

/-- `VUPIPE_XGKICK`. -/
def vuPipeXgkick : BitVec 8 := 6

/-- `PackVfAccess1`: nothing when the metadata does not fit. -/
def packVfAccess1 (plan : GpuPairPlan) (upper : Bool) : Option (BitVec 32) :=
  let read1 := if upper then plan.upperVfRead1 else plan.lowerVfRead1
  let read1Mask := if upper then plan.upperVfRead1Mask else plan.lowerVfRead1Mask
  let cycles := if upper then plan.upperCycles else plan.lowerCycles
  let pipe := if upper then plan.upperPipe else plan.lowerPipe
  if cycles < -128 ∨ 127 < cycles then none
  else if vuPipeXgkick < pipe then none
  else if ¬ upper ∧ (15 < plan.viBackupReg ∨ (¬ plan.viBackupWrite ∧ plan.viBackupReg ≠ 0)) then
    none
  else
    some (packBytes read1 read1Mask (if upper then pipe else pipe ||| plan.viBackupReg <<< 3)
      (BitVec.ofInt 8 cycles))

/-- `EncodeUniversalPairMicroOp`. -/
def encodeUniversalPairMicroOp (plan : GpuPairPlan) : Except String UniversalPairMicroOp :=
  if 0x7f < plan.upperKind ∨ 0x7f < plan.lowerKind then
    throw "PairPlan kind does not fit universal GPU-VU format"
  else
    match packVfAccess1 plan true, packVfAccess1 plan false with
    | some upperAccess1, some lowerAccess1 =>
      return {
        upper := plan.upper
        lower := plan.lower
        control := encodeControl plan
        upperViRead := plan.upperViRead
        upperViWrite := plan.upperViWrite
        lowerViRead := plan.lowerViRead
        lowerViWrite := plan.lowerViWrite
        upperVfAccess0 := packVfAccess0 plan true
        upperVfAccess1 := upperAccess1
        lowerVfAccess0 := packVfAccess0 plan false
        lowerVfAccess1 := lowerAccess1 }
    | _, _ => throw "PairPlan dependency metadata does not fit universal GPU-VU format"

/-! ### A program -/

/-- What is asked of the cache. -/
structure Request where
  micro : Micro
  startPc : BitVec 32
  configurationBits : BitVec 32

/-- `UniversalConfigurationKnownMask`. -/
def universalConfigurationKnownMask : BitVec 32 := 0xffff

/-- `UniversalMicroProgramFormatVersion`. -/
def universalMicroProgramFormatVersion : ℕ := 3

/-- `UniversalMicroProgramPairCount`. -/
def universalMicroProgramPairCount : ℕ := 2048

/-- `UniversalMicroProgram`. -/
structure UniversalMicroProgram where
  formatVersion : ℕ := universalMicroProgramFormatVersion
  configurationBits : BitVec 32 := 0
  startPc : BitVec 32 := 0
  validPairCount : ℕ := 0
  invalidPairCount : ℕ := 0
  pairs : List UniversalPairMicroOp := []

/-- The start is an address of a pair. -/
def validStart (startPc : BitVec 32) : Bool := startPc &&& 7 == 0 && startPc ≤ 0x3fff

/-- All bits of the configuration are known. -/
def knownConfiguration (configurationBits : BitVec 32) : Bool :=
  configurationBits &&& ~~~universalConfigurationKnownMask == 0

section Encode

-- The tables behind the analysis of a pair, from its address and words and whether it is
-- assumed to be scheduled and has instant results.
variable (tables : BitVec 32 → BitVec 32 → BitVec 32 → Bool → Bool → Option GpuPairPlan)

/-- `AnalyzeGpuVu1PairForConfiguration`. -/
def analyzeGpuVu1PairForConfiguration (pc upper lower : BitVec 32)
    (assumeScheduled instantQp : Bool) : Option GpuPairPlan :=
  (tables pc upper lower assumeScheduled instantQp).map fun plan => { plan with upper, lower }

/-- One pair of a program, and whether it is valid. -/
def encodePair (request : Request) (index : ℕ) : Except String (UniversalPairMicroOp × Bool) :=
  let lower := readWord request.micro (8 * index)
  let upper := readWord request.micro (8 * index + 4)
  match analyzeGpuVu1PairForConfiguration tables (BitVec.ofNat 32 (8 * index)) upper lower
      (request.configurationBits.getLsbD 0) (request.configurationBits.getLsbD 1) with
  | none => return ({ lower, upper }, false)
  | some plan => do
    let encoded ← encodeUniversalPairMicroOp plan
    return (encoded, true)

/-- `EncodeUniversalMicroProgramForConfiguration`. -/
def encodeUniversalMicroProgram (request : Request) : Except String UniversalMicroProgram :=
  if ¬ validStart request.startPc then
    throw "universal GPU-VU start PC is not a VU1 pair address"
  else if ¬ knownConfiguration request.configurationBits then
    throw "unknown universal GPU-VU execution configuration"
  else do
    let encoded ← (List.range universalMicroProgramPairCount).mapM (encodePair tables request)
    return {
      configurationBits := request.configurationBits
      startPc := request.startPc
      validPairCount := encoded.countP (·.2)
      invalidPairCount := encoded.countP (!·.2)
      pairs := encoded.map (·.1) }

end Encode

/-- `Matches`. -/
def matchesRequest (program : UniversalMicroProgram) (request : Request) : Bool :=
  program.startPc == request.startPc && program.configurationBits == request.configurationBits &&
    (List.range universalMicroProgramPairCount).all fun index =>
      (program.pairs.getD index {}).lower == readWord request.micro (8 * index) &&
        (program.pairs.getD index {}).upper == readWord request.micro (8 * index + 4)

/-! ### The words of a program -/

/-- Two requests for one image, one start and one configuration. -/
def SameWords (left right : Request) : Prop :=
  left.startPc = right.startPc ∧ left.configurationBits = right.configurationBits ∧
    ∀ index < universalMicroProgramPairCount,
      readWord left.micro (8 * index) = readWord right.micro (8 * index) ∧
        readWord left.micro (8 * index + 4) = readWord right.micro (8 * index + 4)

lemma extract_bytes (byte3 byte2 byte1 byte0 : BitVec 8) :
    (byte3 ++ byte2 ++ byte1 ++ byte0).extractLsb' 0 8 = byte0 ∧
      (byte3 ++ byte2 ++ byte1 ++ byte0).extractLsb' 8 8 = byte1 ∧
      (byte3 ++ byte2 ++ byte1 ++ byte0).extractLsb' 16 8 = byte2 ∧
      (byte3 ++ byte2 ++ byte1 ++ byte0).extractLsb' 24 8 = byte3 := by
  refine ⟨?_, ?_, ?_, ?_⟩
  all_goals
    refine BitVec.eq_of_getLsbD_eq fun i hi => ?_
    simp only [BitVec.getLsbD_extractLsb', BitVec.getLsbD_append, hi, decide_true, Bool.true_and]
    split_ifs <;> first | rfl | omega | (congr 1; omega)

/-- A word determines its four bytes. -/
lemma bytes_of_readWord {micro micro' : Micro} {address : ℕ}
    (h : readWord micro address = readWord micro' address) {offset : ℕ} (hoffset : offset < 4) :
    micro (Fin.ofNat 16384 (address + offset)) = micro' (Fin.ofNat 16384 (address + offset)) := by
  obtain ⟨h0, h1, h2, h3⟩ := extract_bytes (micro (Fin.ofNat 16384 (address + 3)))
    (micro (Fin.ofNat 16384 (address + 2))) (micro (Fin.ofNat 16384 (address + 1)))
    (micro (Fin.ofNat 16384 address))
  obtain ⟨h0', h1', h2', h3'⟩ := extract_bytes (micro' (Fin.ofNat 16384 (address + 3)))
    (micro' (Fin.ofNat 16384 (address + 2))) (micro' (Fin.ofNat 16384 (address + 1)))
    (micro' (Fin.ofNat 16384 address))
  unfold readWord at h
  rw [h] at h0 h1 h2 h3
  have hcases : offset = 0 ∨ offset = 1 ∨ offset = 2 ∨ offset = 3 := by omega
  rcases hcases with rfl | rfl | rfl | rfl
  · exact h0.symm.trans h0'
  · exact h1.symm.trans h1'
  · exact h2.symm.trans h2'
  · exact h3.symm.trans h3'

/-- The words determine the image. -/
lemma eq_of_sameWords {left right : Request} (h : SameWords left right) : left = right := by
  obtain ⟨micro, startPc, configurationBits⟩ := left
  obtain ⟨micro', startPc', configurationBits'⟩ := right
  obtain ⟨rfl, rfl, hwords⟩ := h
  dsimp only at hwords
  have hmicro : micro = micro' := by
    funext address
    -- The byte lies in one of the two words of its pair.
    have hbyte : ∀ (word offset : ℕ), offset < 4 → word + offset = address.val →
        readWord micro word = readWord micro' word → micro address = micro' address := by
      intro word offset hoffset haddress heq
      have hbytes := bytes_of_readWord heq hoffset
      have hindex : Fin.ofNat 16384 (word + offset) = address := by
        apply Fin.ext
        rw [haddress]
        exact Nat.mod_eq_of_lt address.isLt
      rwa [hindex] at hbytes
    have hlt : address.val / 8 < universalMicroProgramPairCount := by
      have hbound := address.isLt
      rw [universalMicroProgramPairCount]
      omega
    obtain ⟨hlower, hupper⟩ := hwords _ hlt
    by_cases hhalf : address.val % 8 < 4
    · exact hbyte (8 * (address.val / 8)) (address.val % 8) hhalf (by omega) hlower
    · exact hbyte (8 * (address.val / 8) + 4) (address.val % 8 - 4) (by omega) (by omega) hupper
  rw [hmicro]

section Encode

variable {tables : BitVec 32 → BitVec 32 → BitVec 32 → Bool → Bool → Option GpuPairPlan}
  {request : Request} {program : UniversalMicroProgram}

/-- A record has the words of its pair. -/
lemma words_of_encodePair {index : ℕ} {result : UniversalPairMicroOp × Bool}
    (h : encodePair tables request index = .ok result) :
    result.1.lower = readWord request.micro (8 * index) ∧
      result.1.upper = readWord request.micro (8 * index + 4) := by
  unfold encodePair at h
  dsimp only at h
  split at h
  · cases h
    exact ⟨rfl, rfl⟩
  next plan hplan =>
    obtain ⟨analyzed, -, rfl⟩ := Option.map_eq_some_iff.mp hplan
    unfold encodeUniversalPairMicroOp at h
    dsimp only at h
    split at h
    · cases h
    split at h
    · cases h
      exact ⟨rfl, rfl⟩
    · cases h

lemma forall₂_of_mapM_ok {α β : Type} {f : α → Except String β} {l : List α} {l' : List β}
    (h : l.mapM f = .ok l') : List.Forall₂ (fun a b => f a = .ok b) l l' := by
  induction l generalizing l' with
  | nil =>
    cases h
    exact .nil
  | cons a rest ih =>
    rw [List.mapM_cons] at h
    cases ha : f a with
    | error e =>
      rw [ha] at h
      cases h
    | ok b =>
      rw [ha] at h
      cases hrest : rest.mapM f with
      | error e =>
        rw [hrest] at h
        cases h
      | ok rest' =>
        rw [hrest] at h
        cases h
        exact .cons ha (ih hrest)

/-- An encoded program has the start, the configuration and the words of its request. -/
lemma matches_of_encode (h : encodeUniversalMicroProgram tables request = .ok program) :
    matchesRequest program request = true := by
  unfold encodeUniversalMicroProgram at h
  split at h
  · cases h
  split at h
  · cases h
  cases hpairs : (List.range universalMicroProgramPairCount).mapM (encodePair tables request) with
  | error e =>
    rw [hpairs] at h
    cases h
  | ok encoded =>
    rw [hpairs] at h
    cases h
    obtain ⟨hlength, hall⟩ := List.forall₂_iff_get.mp (forall₂_of_mapM_ok hpairs)
    rw [List.length_range] at hlength
    simp only [matchesRequest, beq_self_eq_true, Bool.true_and, List.all_eq_true, List.mem_range]
    intro index hindex
    have hget := hall index (by rwa [List.length_range]) (hlength ▸ hindex)
    rw [List.get_eq_getElem, List.getElem_range] at hget
    obtain ⟨hlower, hupper⟩ := words_of_encodePair hget
    rw [List.getD_eq_getElem?_getD, List.getElem?_map,
      List.getElem?_eq_getElem (hlength ▸ hindex : index < encoded.length), Option.map_some,
      Option.getD_some, Bool.and_eq_true, beq_iff_eq, beq_iff_eq]
    exact ⟨hlower, hupper⟩

/-- A program that matches two requests has the words of both. -/
lemma eq_of_matches {left right : Request} (hleft : matchesRequest program left = true)
    (hright : matchesRequest program right = true) : left = right := by
  simp only [matchesRequest, Bool.and_eq_true, beq_iff_eq, List.all_eq_true, List.mem_range]
    at hleft hright
  obtain ⟨⟨hstart, hconfiguration⟩, hwords⟩ := hleft
  obtain ⟨⟨hstart', hconfiguration'⟩, hwords'⟩ := hright
  refine eq_of_sameWords ⟨hstart.symm.trans hstart', hconfiguration.symm.trans hconfiguration',
    fun index hindex => ?_⟩
  obtain ⟨hlower, hupper⟩ := hwords index hindex
  obtain ⟨hlower', hupper'⟩ := hwords' index hindex
  exact ⟨hlower.symm.trans hlower', hupper.symm.trans hupper'⟩

/-- An encoded program matches its own request only. -/
theorem matches_iff_of_encode (h : encodeUniversalMicroProgram tables request = .ok program)
    (other : Request) : matchesRequest program other = true ↔ other = request := by
  constructor
  · exact fun hother => eq_of_matches hother (matches_of_encode h)
  · rintro rfl
    exact matches_of_encode h

end Encode

end VitaSX2.MicroCache
