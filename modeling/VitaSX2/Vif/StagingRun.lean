/-
Deliveries of an UNPACK in several packets.

The partial transfers collect the payload and count NUM down packet by packet; the
last one converts what has been collected like a transfer in one piece.  NUM is
right between the packets exactly when the packets keep vectors and cycles whole
as far as counting goes.
-/
import VitaSX2.Vif.Staging
import VitaSX2.Vif.UnpackPayload

namespace VitaSX2.Vif

/-! ### The bytes that a conversion reads -/

section Conversion

variable {unit : VifUnit} {regs : UnpackRegs} {state : UnpackState} {source source' : ℕ → Byte}

/-- The loop in front of the vector `i`. -/
def unpackPlace (unit : VifUnit) (regs : UnpackRegs) (state : UnpackState) (i : ℕ) : UnpackLoop :=
  (unpackTurn unit regs regs.isFill skipVector)^[i] { state := state }

/-- Two sources have the same bytes where the vectors of an UNPACK are read. -/
def ReadsSame (unit : VifUnit) (regs : UnpackRegs) (state : UnpackState)
    (source source' : ℕ → Byte) : Prop :=
  ∀ i < state.num.toNat, ∀ k < Vu.vectorReadBytes regs.format,
    source ((unpackPlace unit regs state i).data + k) =
      source' ((unpackPlace unit regs state i).data + k)

/-- Two equal loops in front of the vector `i`. -/
def AtPlace (unit : VifUnit) (regs : UnpackRegs) (state : UnpackState) (i : ℕ)
    (left right : UnpackLoop) : Prop :=
  left = right ∧ ∃ vector, left = (unpackPlace unit regs state i).withVector vector

/-- Loops whose kernels agree at the places that they pass end alike. -/
lemma unpackLoop_congr {kernel kernel' : VectorKernel} (hnum : state.num ≠ 0)
    (h : ∀ i < state.num.toNat, ∀ cl iteration destination vector,
      kernel cl (unpackPlace unit regs state i).data iteration destination vector =
        kernel' cl (unpackPlace unit regs state i).data iteration destination vector) :
    unpackLoop unit regs regs.isFill kernel state =
      unpackLoop unit regs regs.isFill kernel' state := by
  have hend : AtPlace unit regs state state.num.toNat
      ((unpackTurn unit regs regs.isFill kernel)^[state.num.toNat] { state := state })
      ((unpackTurn unit regs regs.isFill kernel')^[state.num.toNat] { state := state }) := by
    refine CountedLoop.simulation (AtPlace unit regs state) ?_ ⟨rfl, state.vector, rfl⟩
    rintro i hi _ _ ⟨rfl, vector, rfl⟩
    have hplace : unpackTurn unit regs regs.isFill skipVector (unpackPlace unit regs state i) =
        unpackPlace unit regs state (i + 1) := (Function.iterate_succ_apply' _ _ _).symm
    rw [AtPlace, unpackTurn_withVector, unpackTurn_withVector, h i hi, hplace]
    exact ⟨rfl, _, rfl⟩
  rw [unpackLoop, unpackLoop, turns_of_ne_zero hnum]
  exact congrArg (·.state) hend.1

/-- A conversion depends on the bytes that its vectors are read from. -/
theorem convertUnpack_congr (hready : UnpackReady regs state) (newVifDynaRec : Bool)
    (h : ReadsSame unit regs state source source') :
    (convertUnpack newVifDynaRec unit regs source regs.isFill state).vector =
      (convertUnpack newVifDynaRec unit regs source' regs.isFill state).vector := by
  cases newVifDynaRec with
  | true =>
    rw [convertUnpack, convertUnpack, if_pos rfl, if_pos rfl, vitaVifUnpack_memory hready,
      vitaVifUnpack_memory hready]
    refine congrArg (·.vector) (unpackLoop_congr hready.num fun i hi cl iteration _ _ => ?_)
    rw [plainKernel, plainKernel, laneKernel, laneKernel,
      formatWords_congr hready.data iteration (h i hi)]
  | false =>
    refine congrArg (·.vector) (unpackLoop_congr hready.num fun i hi cl iteration _ _ => ?_)
    by_cases hformat : regs.format = 0x0f
    · rw [vifFuncTable_v4_5 hformat, vifFuncTable_v4_5 hformat, v4_5Words_congr hformat (h i hi)]
    · have hvl := (format_cases hready.data).resolve_left hformat
      rw [vifFuncTable_eq hvl, vifFuncTable_eq hvl]
      exact congrArg (storeLanes _ _ _ _ _ · _)
        (funext (elements_congr format_lt hvl _ (h i hi)))

end Conversion

/-! ### Partial transfers -/

section Partial

variable (newVifDynaRec : Bool) (unit : VifUnit) {start : VifStaging} {front : List VifPacket}
  {packet : VifPacket}

/-- A transfer that leaves words to come. -/
lemma nVifUnpack_partial {staging : VifStaging} (h : packet.words < staging.tagSize) :
    (staging.nVifUnpack newVifDynaRec unit packet).1 =
      { staging with
        buffer := memcpy staging.buffer staging.bSize packet.data (packet.words * 4)
        bSize := staging.bSize + packet.words * 4
        tagSize := staging.tagSize - packet.words
        num := staging.num -
          BitVec.ofInt 32 (VifStaging.charge staging.regs (packet.words * 4)) } := by
  rw [VifStaging.nVifUnpack, min_eq_left h.le]
  dsimp only
  rw [if_neg h.ne]

/-- What the partial transfers have taken off NUM. -/
def charged (regs : UnpackRegs) (packets : List VifPacket) : ℤ :=
  (packets.map fun packet => VifStaging.charge regs (packet.words * 4)).sum

/-- The buffer in front of a packet: the payload so far, and what has been there. -/
def stagedBytes (packets : List VifPacket) (buffer : ℕ → Byte) (k : ℕ) : Byte :=
  if k < packetWords packets * 4 then payload packets k else buffer k

lemma memcpy_stagedBytes (front : List VifPacket) (packet : VifPacket) (buffer : ℕ → Byte)
    {words : ℕ} (hwords : words ≤ packet.words) (k : ℕ) :
    memcpy (stagedBytes front buffer) (packetWords front * 4) packet.data (words * 4) k =
      if k < (packetWords front + words) * 4 then payload (front ++ [packet]) k else buffer k := by
  rw [memcpy, payload_append]
  by_cases hk : k < packetWords front * 4
  · rw [if_neg (by omega), stagedBytes, if_pos hk, if_pos (by omega), if_pos hk]
  · by_cases hk' : k < (packetWords front + words) * 4
    · rw [if_pos (by omega), if_pos hk', if_neg hk, payload, if_pos (by omega)]
    · rw [if_neg (by omega), if_neg hk', stagedBytes, if_neg hk]

/-- The state between two packets. -/
theorem receive_partials (hbSize : start.bSize = 0) (hlt : packetWords front < start.tagSize) :
    start.receive newVifDynaRec unit front =
      { start with
        buffer := stagedBytes front start.buffer
        bSize := packetWords front * 4
        tagSize := start.tagSize - packetWords front
        num := start.num - BitVec.ofInt 32 (charged start.regs front) } := by
  induction front using List.reverseRecOn with
  | nil =>
    obtain ⟨code, regs, tagAddr, tagSize, num, cl, pass, bSize, buffer, vector⟩ := start
    obtain rfl : bSize = 0 := hbSize
    have hbuffer : stagedBytes [] buffer = buffer := funext fun k => if_neg (by simp [packetWords])
    simp [VifStaging.receive, hbuffer, packetWords, charged]
  | append_singleton front packet ih =>
    rw [packetWords_append, packetWords_singleton] at hlt
    have hfront := ih (by omega)
    have hpacket : packet.words < (start.receive newVifDynaRec unit front).tagSize := by
      rw [hfront]
      dsimp only
      omega
    have hreceive : start.receive newVifDynaRec unit (front ++ [packet]) =
        ((start.receive newVifDynaRec unit front).nVifUnpack newVifDynaRec unit packet).1 := by
      rw [VifStaging.receive, List.foldl_append]
      rfl
    have hbuffer : memcpy (stagedBytes front start.buffer) (packetWords front * 4) packet.data
        (packet.words * 4) = stagedBytes (front ++ [packet]) start.buffer := by
      funext k
      rw [memcpy_stagedBytes front packet start.buffer le_rfl, stagedBytes, packetWords_append,
        packetWords_singleton]
    have hcharged : charged start.regs (front ++ [packet]) = charged start.regs front +
        VifStaging.charge start.regs (packet.words * 4) := by
      simp [charged]
    rw [hreceive, nVifUnpack_partial newVifDynaRec unit hpacket, hfront]
    dsimp only
    rw [hbuffer, packetWords_append, packetWords_singleton, hcharged, BitVec.ofInt_add,
      Nat.sub_sub, Nat.add_mul, BitVec.sub_sub]

end Partial

/-! ### The last transfer -/

section Last

variable (newVifDynaRec : Bool) (unit : VifUnit) {start : VifStaging} {packet : VifPacket}

/-- The command is done with. -/
structure VifStaging.Cleared (staging : VifStaging) : Prop where
  cmd : staging.regs.cmd = 0
  pass : staging.pass = 0
  tagSize : staging.tagSize = 0
  num : staging.num = 0
  bSize : staging.bSize = 0

/-- The NUM field of a VIF code. -/
def codeNum (code : BitVec 32) : ℕ :=
  if code.toNat / 2 ^ 16 % 2 ^ 8 = 0 then 256 else code.toNat / 2 ^ 16 % 2 ^ 8

lemma codeNum_bounds (code : BitVec 32) : 0 < codeNum code ∧ codeNum code ≤ 256 := by
  unfold codeNum
  split <;> omega

/-- An UNPACK in front of its first packet. -/
structure VifStaging.IsSetUp (staging : VifStaging) : Prop where
  cl : staging.cl = 0
  bSize : staging.bSize = 0
  num : staging.num = BitVec.ofNat 32 (codeNum staging.code)
  tagSize : staging.tagSize =
    (dataVectors staging.regs (codeNum staging.code) * nVifT (staging.regs.cmd % 16) + 3) / 4

/-- What the conversion starts from, however the words have arrived. -/
def VifStaging.unpackState (staging : VifStaging) : UnpackState where
  vector := staging.vector
  tagAddr := staging.tagAddr
  cl := 0
  num := BitVec.ofNat 32 (codeNum staging.code)

/-- The last transfer clears the command, and converts the buffer or the packet. -/
lemma nVifUnpack_last {staging : VifStaging} (h : staging.tagSize ≤ packet.words)
    (hfresh : staging.bSize = 0 →
      staging.cl = 0 ∧ staging.num = BitVec.ofNat 32 (codeNum staging.code)) :
    (staging.nVifUnpack newVifDynaRec unit packet).1.Cleared ∧
      (staging.nVifUnpack newVifDynaRec unit packet).1.tagAddr = staging.tagAddr ∧
      (staging.nVifUnpack newVifDynaRec unit packet).1.vector =
        (convertUnpack newVifDynaRec unit staging.regs
          (if staging.bSize ≠ 0 then
            memcpy staging.buffer staging.bSize packet.data (staging.tagSize * 4)
          else packet.data) staging.regs.isFill staging.unpackState).vector := by
  have hnum : (if staging.code.toNat / 2 ^ 16 % 2 ^ 8 = 0 then 256
      else BitVec.ofNat 32 (staging.code.toNat / 2 ^ 16 % 2 ^ 8)) =
      BitVec.ofNat 32 (codeNum staging.code) := by
    unfold codeNum
    split <;> rfl
  rw [VifStaging.nVifUnpack, min_eq_right h, hnum]
  dsimp only
  rw [if_pos rfl]
  by_cases hbSize : staging.bSize = 0
  · obtain ⟨hcl, hnum⟩ := hfresh hbSize
    simp only [hbSize, ne_eq, not_true_eq_false, if_false]
    refine ⟨⟨rfl, rfl, rfl, rfl, rfl⟩, trivial, ?_⟩
    rw [hcl, hnum, VifStaging.unpackState]
  · simp only [ne_eq, hbSize, not_false_eq_true, if_true]
    exact ⟨⟨rfl, rfl, rfl, rfl, rfl⟩, trivial, rfl⟩

/-- The set-up of an UNPACK. -/
lemma isSetUp_vifUnpackSetup (code tops : BitVec 32) (packetSize : ℕ) (regs : UnpackRegs)
    (buffer : ℕ → Byte) (vector : VectorState) :
    ((vifUnpackSetup unit code tops packetSize regs).staging code buffer vector).IsSetUp where
  cl := rfl
  bSize := rfl
  num := rfl
  tagSize := by
    simp only [UnpackSetup.staging, vifUnpackSetup, dataVectors, isFill_iff]
    change (if regs.wl ≤ regs.cycleCl then _ else _) =
      ((if regs.cycleCl < regs.wl then _ else _) * _ + 3) / 4
    by_cases hle : regs.wl ≤ regs.cycleCl
    · rw [if_pos hle, if_neg (Nat.not_lt.mpr hle)]
      rfl
    · rw [if_neg hle, if_pos (Nat.not_le.mp hle)]
      rfl

end Last

/-! ### Deliveries -/

section Deliveries

variable {newVifDynaRec : Bool} {unit : VifUnit} {start : VifStaging}
  {partials front back : List VifPacket} {last : VifPacket}

/-- The words of an UNPACK in packets none of which is empty. -/
structure Delivery (tagSize : ℕ) (partials : List VifPacket) (last : VifPacket) : Prop where
  nonempty : ∀ packet ∈ partials, 0 < packet.words
  lacking : packetWords partials < tagSize
  complete : tagSize ≤ packetWords partials + last.words

/-- The bytes of the packets. -/
def packetSizes (packets : List VifPacket) : List ℕ := packets.map fun packet => packet.words * 4

lemma sum_packetSizes (packets : List VifPacket) :
    (packetSizes packets).sum = packetWords packets * 4 := by
  induction packets with
  | nil => rfl
  | cons packet packets ih =>
    simp only [packetSizes, packetWords, List.map_cons, List.sum_cons] at ih ⊢
    omega

/-- A packet that has the whole payload, and behind it what the staged conversion
finds there. -/
structure WholePacket (unit : VifUnit) (start : VifStaging) (partials : List VifPacket)
    (last oneCall : VifPacket) : Prop where
  words : start.tagSize ≤ oneCall.words
  payload : ∀ k < start.tagSize * 4, oneCall.data k = payload (partials ++ [last]) k
  behind : ∀ i < start.num.toNat, ∀ k < Vu.vectorReadBytes start.regs.format,
    start.tagSize * 4 ≤ (unpackPlace unit start.regs start.unpackState i).data + k →
    oneCall.data ((unpackPlace unit start.regs start.unpackState i).data + k) =
      (if partials = [] then last.data else start.buffer)
        ((unpackPlace unit start.regs start.unpackState i).data + k)

/-- What the delivery of an UNPACK in packets promises. -/
structure StagedRight (newVifDynaRec : Bool) (unit : VifUnit) (start : VifStaging)
    (partials : List VifPacket) (last : VifPacket) : Prop where
  /-- Between the packets NUM lacks the vectors that the bytes so far complete. -/
  num : ∀ front back, partials = front ++ back →
    (start.receive newVifDynaRec unit front).num.toNat =
      start.num.toNat - completedVectors start.regs start.num.toNat (packetWords front * 4)
  /-- It never wraps. -/
  noWrap : ∀ front back, partials = front ++ back →
    0 < (start.receive newVifDynaRec unit front).num.toNat ∧
      (start.receive newVifDynaRec unit front).num.toNat ≤ start.num.toNat
  /-- Nothing is written behind the staging buffer. -/
  buffer : ∀ front packet back, partials ++ [last] = front ++ packet :: back →
    (start.receive newVifDynaRec unit front).bSize +
      min packet.words (start.receive newVifDynaRec unit front).tagSize * 4 ≤ 4096
  /-- In the end everything is as after a transfer in one piece. -/
  done : ∀ oneCall, WholePacket unit start partials last oneCall →
    (start.receive newVifDynaRec unit (partials ++ [last])).vector =
        (start.nVifUnpack newVifDynaRec unit oneCall).1.vector ∧
      (start.receive newVifDynaRec unit (partials ++ [last])).tagAddr = start.tagAddr ∧
      (start.nVifUnpack newVifDynaRec unit oneCall).1.tagAddr = start.tagAddr ∧
      (start.receive newVifDynaRec unit (partials ++ [last])).Cleared ∧
      (start.nVifUnpack newVifDynaRec unit oneCall).1.Cleared

/-- An UNPACK with words to come has a format with data and, when it fills, a cycle
with data. -/
lemma VifStaging.IsSetUp.data (h : start.IsSetUp) (hpos : 0 < start.tagSize) :
    0 < nVifT (start.regs.cmd % 16) ∧ (start.regs.isFill = true → 0 < start.regs.cycleCl) := by
  have htag := h.tagSize
  constructor
  · by_contra hzero
    rw [Nat.eq_zero_of_not_pos hzero, Nat.mul_zero] at htag
    omega
  · intro hfill
    by_contra hzero
    rw [dataVectors, if_pos hfill, Nat.eq_zero_of_not_pos hzero] at htag
    simp only [Nat.zero_mul, Nat.min_zero, Nat.add_zero] at htag
    omega

/-- Words that are fewer than the payload lack a source vector. -/
lemma VifStaging.IsSetUp.lacks (h : start.IsSetUp) {words : ℕ} (hlt : words < start.tagSize) :
    words * 4 / nVifT (start.regs.cmd % 16) <
      dataVectors start.regs (codeNum start.code) := by
  have htag := h.tagSize
  rw [Nat.div_lt_iff_lt_mul (h.data (by omega)).1]
  omega

/-- The payload fits in the staging buffer. -/
lemma VifStaging.IsSetUp.tagSize_le (h : start.IsSetUp) : start.tagSize ≤ 1024 := by
  have hbytes : ∀ format < 16, nVifT format ≤ 16 := by decide
  have hvectors : dataVectors start.regs (codeNum start.code) ≤ codeNum start.code := by
    unfold dataVectors
    split
    next hfill =>
      have hle := Nat.mul_le_mul_right (codeNum start.code / start.regs.wl)
        (isFill_iff.mp hfill).le
      have := Nat.div_add_mod (codeNum start.code) start.regs.wl
      have := min_le_left (codeNum start.code % start.regs.wl) start.regs.cycleCl
      omega
    next => exact le_rfl
  have hmul := Nat.mul_le_mul (hvectors.trans (codeNum_bounds start.code).2)
    (hbytes (start.regs.cmd % 16) (Nat.mod_lt _ (by decide)))
  rw [h.tagSize]
  omega

/-- A partial transfer charges the output vectors of its source vectors. -/
lemma charge_eq {regs : UnpackRegs} {size : ℕ}
    (hlong : regs.isFill = true → regs.cycleWl = 0 →
      size / nVifT (regs.cmd % 16) < regs.cycleCl) :
    VifStaging.charge regs size = outputVectors regs (size / nVifT (regs.cmd % 16)) := by
  unfold VifStaging.charge outputVectors
  cases hfill : regs.isFill with
  | false => rfl
  | true =>
    simp only [Bool.not_true, Bool.false_eq_true, if_false, if_true]
    by_cases hwl : regs.cycleWl = 0
    · rw [Nat.div_eq_of_lt (hlong hfill hwl)]
      simp
    · have hlt := isFill_iff.mp hfill
      rw [UnpackRegs.wl, if_pos hwl] at hlt ⊢
      rw [Int.natCast_add, Int.natCast_mul, Int.ofNat_sub hlt.le]

lemma charged_eq (h : start.IsSetUp) (hlt : packetWords front < start.tagSize) :
    charged start.regs front = countedVectors start.regs (packetSizes front) := by
  have hall : ∀ packet ∈ front, VifStaging.charge start.regs (packet.words * 4) =
      outputVectors start.regs (packet.words * 4 / nVifT (start.regs.cmd % 16)) := by
    intro packet hpacket
    refine charge_eq fun hfill hwl => ?_
    have hle : packet.words ≤ packetWords front := by
      obtain ⟨before, after, rfl⟩ := List.append_of_mem hpacket
      rw [List.append_cons, packetWords_append, packetWords_append, packetWords_singleton]
      omega
    have hlacks := h.lacks (hle.trans_lt hlt)
    -- WL zero is a cycle of 256 vectors, of which no more than CL have data
    have hnum := (codeNum_bounds start.code).2
    rw [dataVectors, if_pos hfill, UnpackRegs.wl, if_neg (not_not.mpr hwl)] at hlacks
    rcases hnum.lt_or_eq with hnum | hnum
    · rw [Nat.div_eq_of_lt hnum] at hlacks
      have := min_le_right (codeNum start.code % 256) start.regs.cycleCl
      omega
    · rw [hnum] at hlacks
      omega
  rw [charged, List.map_congr_left hall, countedVectors, packetSizes, List.map_map]
  clear hall hlt
  induction front with
  | nil => rfl
  | cons packet front ih =>
    rw [List.map_cons, List.map_cons, List.sum_cons, List.sum_cons, ih, Int.natCast_add]
    rfl

lemma VifStaging.IsSetUp.num_toNat (h : start.IsSetUp) : start.num.toNat = codeNum start.code := by
  have := (codeNum_bounds start.code).2
  rw [h.num, BitVec.toNat_ofNat, Nat.mod_eq_of_lt (by omega)]

/-- NUM between two packets, beside the vectors that are completed. -/
lemma num_receive (newVifDynaRec : Bool) (unit : VifUnit) (h : start.IsSetUp)
    (hlt : packetWords front < start.tagSize) :
    (start.receive newVifDynaRec unit front).num.toNat =
        codeNum start.code - countedVectors start.regs (packetSizes front) ∧
      countedVectors start.regs (packetSizes front) ≤
        completedVectors start.regs (codeNum start.code) (packetWords front * 4) ∧
      completedVectors start.regs (codeNum start.code) (packetWords front * 4) <
        codeNum start.code ∧
      (countedVectors start.regs (packetSizes front) =
          completedVectors start.regs (codeNum start.code) (packetWords front * 4) ↔
        KeepsVectors start.regs (packetSizes front)) := by
  obtain ⟨hsize, hcl⟩ := h.data (by omega)
  have hnum := (codeNum_bounds start.code).2
  obtain ⟨hcompleted, hmore⟩ := completedVectors_eq hsize hcl (h.lacks hlt)
  obtain ⟨hle, hiff⟩ := countedVectors_spec hsize hcl (packetSizes front)
  rw [sum_packetSizes] at hle hiff
  rw [hcompleted]
  refine ⟨?_, hle, hmore, hiff⟩
  rw [receive_partials newVifDynaRec unit h.bSize hlt, charged_eq h hlt, BitVec.ofInt_natCast]
  dsimp only
  rw [h.num, BitVec.toNat_sub_of_le]
  · rw [BitVec.toNat_ofNat, BitVec.toNat_ofNat, Nat.mod_eq_of_lt (by omega),
      Nat.mod_eq_of_lt (by omega)]
  · rw [BitVec.le_def, BitVec.toNat_ofNat, BitVec.toNat_ofNat, Nat.mod_eq_of_lt (by omega),
      Nat.mod_eq_of_lt (by omega)]
    omega

/-- The writes to the staging buffer. -/
lemma buffer_receive (newVifDynaRec : Bool) (unit : VifUnit) (h : start.IsSetUp)
    (hlt : packetWords front < start.tagSize) (words : ℕ) :
    (start.receive newVifDynaRec unit front).bSize +
      min words (start.receive newVifDynaRec unit front).tagSize * 4 ≤ 4096 := by
  have htag := h.tagSize_le
  rw [receive_partials newVifDynaRec unit h.bSize hlt]
  dsimp only
  omega

/-- Without a partial transfer there is nothing in the buffer. -/
lemma Delivery.eq_nil {tagSize : ℕ} (h : Delivery tagSize partials last)
    (hzero : packetWords partials = 0) : partials = [] := by
  cases partials with
  | nil => rfl
  | cons packet rest =>
    have hpos := h.nonempty packet List.mem_cons_self
    rw [packetWords, List.map_cons, List.sum_cons] at hzero
    omega

/-- The bytes that the last transfer converts. -/
lemma Delivery.source_eq {tagSize : ℕ} (h : Delivery tagSize partials last) (buffer : ℕ → Byte)
    (k : ℕ) :
    (if packetWords partials * 4 ≠ 0 then
        memcpy (stagedBytes partials buffer) (packetWords partials * 4) last.data
          ((tagSize - packetWords partials) * 4)
      else last.data) k =
      if k < tagSize * 4 then payload (partials ++ [last]) k
      else (if partials = [] then last.data else buffer) k := by
  have hcomplete := h.complete
  have hlacking := h.lacking
  by_cases hzero : packetWords partials = 0
  · obtain rfl := h.eq_nil hzero
    rw [if_neg (by omega), if_pos rfl, List.nil_append, payload]
    split
    · rw [if_pos (by omega)]
    · rfl
  · have hne : partials ≠ [] := by
      rintro rfl
      exact hzero rfl
    rw [if_pos (by omega), memcpy_stagedBytes _ _ _ (by omega), if_neg hne]
    rw [show packetWords partials + (tagSize - packetWords partials) = tagSize by omega]

/-- The delivery in packets ends like the one in one piece. -/
lemma done_receive (newVifDynaRec : Bool) (h : start.IsSetUp)
    (hready : UnpackReady start.regs start.unpackState)
    (hdelivery : Delivery start.tagSize partials last) {oneCall : VifPacket}
    (hwhole : WholePacket unit start partials last oneCall) :
    (start.receive newVifDynaRec unit (partials ++ [last])).vector =
        (start.nVifUnpack newVifDynaRec unit oneCall).1.vector ∧
      (start.receive newVifDynaRec unit (partials ++ [last])).tagAddr = start.tagAddr ∧
      (start.nVifUnpack newVifDynaRec unit oneCall).1.tagAddr = start.tagAddr ∧
      (start.receive newVifDynaRec unit (partials ++ [last])).Cleared ∧
      (start.nVifUnpack newVifDynaRec unit oneCall).1.Cleared := by
  have hcomplete := hdelivery.complete
  have hlast : start.receive newVifDynaRec unit (partials ++ [last]) =
      ((start.receive newVifDynaRec unit partials).nVifUnpack newVifDynaRec unit last).1 := by
    rw [VifStaging.receive, List.foldl_append]
    rfl
  rw [hlast]
  have hstaged := receive_partials newVifDynaRec unit h.bSize hdelivery.lacking
  generalize start.receive newVifDynaRec unit partials = staging at hstaged
  subst hstaged
  obtain ⟨hcleared, haddr, hvector⟩ := nVifUnpack_last newVifDynaRec unit hwhole.words
    fun _ => ⟨h.cl, h.num⟩
  obtain ⟨hcleared', haddr', hvector'⟩ := @nVifUnpack_last newVifDynaRec unit last
    { start with
      buffer := stagedBytes partials start.buffer
      bSize := packetWords partials * 4
      tagSize := start.tagSize - packetWords partials
      num := start.num - BitVec.ofInt 32 (charged start.regs partials) }
    (by dsimp only; omega) (by
      intro hzero
      obtain rfl := hdelivery.eq_nil (by dsimp only at hzero; omega)
      exact ⟨h.cl, by simp [charged, h.num]⟩)
  refine ⟨?_, haddr', haddr, hcleared', hcleared⟩
  rw [hvector, hvector', if_neg (not_not.mpr h.bSize)]
  refine convertUnpack_congr hready newVifDynaRec fun i hi k hk => ?_
  refine (hdelivery.source_eq start.buffer _).trans ?_
  split
  next hpayload => exact (hwhole.payload _ hpayload).symm
  next hbehind =>
    refine (hwhole.behind i ?_ k hk (Nat.not_lt.mp hbehind)).symm
    rw [h.num]
    exact hi

/-- V4-32 with NUM 2, and the set-up of it. -/
def twoVectors : UnpackSetup :=
  vifUnpackSetup .vif1 0x6c020000 0 9 { cmd := 0x6c, cycleCl := 1, cycleWl := 1 }

end Deliveries

end VitaSX2.Vif
