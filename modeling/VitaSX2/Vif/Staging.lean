/-
Partial transfers of an UNPACK (`nVifUnpack` in `Vif_Unpack.cpp`).

The words of an UNPACK may arrive in several packets.  All but the last are staged
in a buffer, with NUM counted down for the vectors that they complete; the last one
runs the conversion on the whole buffer.  With the VU thread the worker makes the
same conversion on a copy of the bytes.

The conversion may read behind the payload: a fill vector reads on where the data
ends, and the W lane of a V3 format lies behind its vector.  There a staged UNPACK
finds what the buffer holds, and another one what follows in its packet.
-/
import Mathlib.Algebra.GroupWithZero.Nat
import Mathlib.Algebra.Ring.Int.Defs
import VitaSX2.Lib.FloorSum
import VitaSX2.Vif.Span
import VitaSX2.Vif.UnpackFold

namespace VitaSX2.Vif

/-- The `nVifStruct`, `vifStruct` and `VIFregisters` of an UNPACK, with the VU memory
and the row registers; `regs.cmd` is the command of `vifStruct`. -/
structure VifStaging where
  code : BitVec 32
  regs : UnpackRegs
  tagAddr : BitVec 32
  tagSize : ℕ
  num : BitVec 32
  cl : ℕ := 0
  pass : ℕ := 1
  bSize : ℕ := 0
  buffer : ℕ → Byte
  vector : VectorState

/-- What `vifUnpackSetup` leaves, in front of the first packet. -/
def UnpackSetup.staging (setup : UnpackSetup) (code : BitVec 32) (buffer : ℕ → Byte)
    (vector : VectorState) : VifStaging where
  code := code
  regs := setup.regs
  tagAddr := setup.tagAddr
  tagSize := setup.tagSize
  num := setup.num
  buffer := buffer
  vector := vector

/-- The words that a packet holds from the data pointer on. -/
structure VifPacket where
  words : ℕ
  data : ℕ → Byte

def UnpackRegs.wl (regs : UnpackRegs) : ℕ := if regs.cycleWl ≠ 0 then regs.cycleWl else 256

/-- The conversion of a complete UNPACK, by the generated loops or the interpreter. -/
def convertUnpack (newVifDynaRec : Bool) (unit : VifUnit) (regs : UnpackRegs) (data : ℕ → Byte)
    (isFill : Bool) (state : UnpackState) : UnpackState :=
  if newVifDynaRec then vitaVifUnpack unit regs data isFill state
  else nVifUnpack unit regs data isFill state

namespace VifStaging

variable (newVifDynaRec : Bool) (unit : VifUnit) (staging : VifStaging) (packet : VifPacket)

/-- What a partial transfer takes off NUM. -/
def charge (regs : UnpackRegs) (size : ℕ) : ℤ :=
  let dataSize := size / nVifT (regs.cmd % 16)
  if !regs.isFill then dataSize
  else ((dataSize / regs.cycleCl : ℕ) : ℤ) * ((regs.cycleWl : ℤ) - regs.cycleCl) + dataSize

/-- `nVifUnpack`, which also returns the words that it took. -/
def nVifUnpack : VifStaging × ℕ :=
  let ret := min packet.words staging.tagSize
  let size := ret * 4
  if ret = staging.tagSize then
    let staged :=
      if staging.bSize ≠ 0 then
        { staging with
          buffer := memcpy staging.buffer staging.bSize packet.data size
          bSize := staging.bSize + size
          cl := 0
          num :=
            if staging.code.toNat / 2 ^ 16 % 2 ^ 8 = 0 then 256
            else BitVec.ofNat 32 (staging.code.toNat / 2 ^ 16 % 2 ^ 8) }
      else staging
    let data := if staging.bSize ≠ 0 then staged.buffer else packet.data
    let after := convertUnpack newVifDynaRec unit staged.regs data staged.regs.isFill
      ⟨staged.vector, staged.tagAddr, staged.cl, staged.num⟩
    ({ staged with
      vector := after.vector
      cl := after.cl
      regs := { staged.regs with cmd := 0 }
      pass := 0
      tagSize := 0
      num := 0
      bSize := 0 }, ret)
  else
    ({ staging with
      buffer := memcpy staging.buffer staging.bSize packet.data size
      bSize := staging.bSize + size
      tagSize := staging.tagSize - ret
      num := staging.num - BitVec.ofInt 32 (charge staging.regs size) }, ret)

/-- A number of packets, one after another. -/
def receive (packets : List VifPacket) : VifStaging :=
  packets.foldl (fun staging packet => (staging.nVifUnpack newVifDynaRec unit packet).1) staging

end VifStaging

/-! ### What the packets carry -/

/-- The words of some packets. -/
def packetWords (packets : List VifPacket) : ℕ := (packets.map VifPacket.words).sum

/-- The bytes of some packets, one after another. -/
def payload : List VifPacket → ℕ → Byte
  | [], _ => 0
  | packet :: packets, k =>
    if k < packet.words * 4 then packet.data k else payload packets (k - packet.words * 4)

lemma packetWords_append (front back : List VifPacket) :
    packetWords (front ++ back) = packetWords front + packetWords back := by
  rw [packetWords, List.map_append, List.sum_append]
  rfl

lemma packetWords_singleton (packet : VifPacket) : packetWords [packet] = packet.words := by
  simp [packetWords]

lemma payload_append (front back : List VifPacket) (k : ℕ) :
    payload (front ++ back) k =
      if k < packetWords front * 4 then payload front k
      else payload back (k - packetWords front * 4) := by
  induction front generalizing k with
  | nil => rfl
  | cons packet front ih =>
    have hwords : packetWords (packet :: front) = packet.words + packetWords front := by
      rw [packetWords, List.map_cons, List.sum_cons]
      rfl
    rw [List.cons_append, payload, payload, ih, hwords]
    by_cases hk : k < packet.words * 4
    · rw [if_pos hk, if_pos hk, if_pos (by omega)]
    · rw [if_neg hk, if_neg hk, Nat.sub_sub]
      by_cases hk' : k - packet.words * 4 < packetWords front * 4
      · rw [if_pos hk', if_pos (by omega)]
      · rw [if_neg hk', if_neg (by omega), Nat.add_mul]

/-! ### Vectors -/

/-- The source vectors that the first output vectors take. -/
def dataVectors (regs : UnpackRegs) (vectors : ℕ) : ℕ :=
  if regs.isFill then
    regs.cycleCl * (vectors / regs.wl) + min (vectors % regs.wl) regs.cycleCl
  else vectors

/-- The output vectors, fill vectors included, that some bytes complete. -/
def completedVectors (regs : UnpackRegs) (vifNum bytes : ℕ) : ℕ :=
  (List.range vifNum).countP fun i => dataVectors regs (i + 1) * nVifT (regs.cmd % 16) ≤ bytes

/-- The output vectors of a number of source vectors. -/
def outputVectors (regs : UnpackRegs) (vectors : ℕ) : ℕ :=
  if regs.isFill then vectors / regs.cycleCl * (regs.wl - regs.cycleCl) + vectors else vectors

variable {regs : UnpackRegs} {vifNum bytes : ℕ}

lemma isFill_iff : regs.isFill = true ↔ regs.cycleCl < regs.wl := decide_eq_true_iff

lemma wl_pos : 0 < regs.wl := by
  unfold UnpackRegs.wl
  split <;> omega

lemma countP_range_lt (n m : ℕ) : (List.range n).countP (fun i => i + 1 ≤ m) = min n m := by
  induction n with
  | zero => simp
  | succ n ih =>
    rw [List.range_succ, List.countP_append, ih, List.countP_singleton]
    by_cases hn : n + 1 ≤ m
    · simp only [hn, decide_true, if_true]
      omega
    · simp only [hn, decide_false, Bool.false_eq_true, if_false]
      omega

/-- A cycle takes `c` source vectors and gives `g + 1` vectors more. -/
private lemma cycle_le_iff {c g q r q' r' : ℕ} (hr : r < c + g + 1) (hr' : r' < c) :
    c * q + min r c ≤ c * q' + r' ↔ (c + g + 1) * q + r ≤ (g + 1) * q' + (c * q' + r') := by
  simp only [Nat.add_mul, Nat.one_mul]
  rcases Nat.lt_trichotomy q q' with hq | rfl | hq
  · obtain ⟨k, rfl⟩ := Nat.exists_eq_add_of_lt hq
    simp only [Nat.mul_add, Nat.mul_one]
    omega
  · omega
  · obtain ⟨k, rfl⟩ := Nat.exists_eq_add_of_lt hq
    simp only [Nat.mul_add, Nat.mul_one]
    omega

/-- How many output vectors a number of source vectors is enough for. -/
lemma dataVectors_le_iff (hcl : regs.isFill = true → 0 < regs.cycleCl) {n d : ℕ} :
    dataVectors regs n ≤ d ↔ n ≤ outputVectors regs d := by
  rw [dataVectors, outputVectors]
  cases hfill : regs.isFill with
  | false => exact Iff.rfl
  | true =>
    obtain ⟨gap, hgap⟩ := Nat.exists_eq_add_of_lt (isFill_iff.mp hfill)
    have hmod := Nat.mod_lt n (@wl_pos regs)
    have hmod' := Nat.mod_lt d (hcl hfill)
    have hiff := @cycle_le_iff regs.cycleCl gap (n / regs.wl) (n % regs.wl) (d / regs.cycleCl)
      (d % regs.cycleCl) (by omega) hmod'
    rw [← hgap, Nat.div_add_mod, Nat.div_add_mod] at hiff
    rw [if_pos rfl, if_pos rfl, hiff, Nat.mul_comm (d / regs.cycleCl)]
    rw [show regs.wl - regs.cycleCl = gap + 1 by omega]

/-- The vectors that are completed, as long as some source vector is missing. -/
lemma completedVectors_eq (hsize : 0 < nVifT (regs.cmd % 16))
    (hcl : regs.isFill = true → 0 < regs.cycleCl)
    (hlt : bytes / nVifT (regs.cmd % 16) < dataVectors regs vifNum) :
    completedVectors regs vifNum bytes = outputVectors regs (bytes / nVifT (regs.cmd % 16)) ∧
      outputVectors regs (bytes / nVifT (regs.cmd % 16)) < vifNum := by
  have hle : outputVectors regs (bytes / nVifT (regs.cmd % 16)) < vifNum := by
    by_contra hle
    exact absurd ((dataVectors_le_iff hcl).mpr (Nat.not_lt.mp hle)) (Nat.not_le.mpr hlt)
  refine ⟨?_, hle⟩
  have hiff : ∀ i, dataVectors regs (i + 1) * nVifT (regs.cmd % 16) ≤ bytes ↔
      i + 1 ≤ outputVectors regs (bytes / nVifT (regs.cmd % 16)) := fun i => by
    rw [← Nat.le_div_iff_mul_le hsize, dataVectors_le_iff hcl]
  simp only [completedVectors, hiff]
  rw [countP_range_lt]
  omega

/-! ### Counting packet by packet -/

lemma outputVectors_lt {d e : ℕ} (h : d < e) : outputVectors regs d < outputVectors regs e := by
  unfold outputVectors
  split
  · have := Nat.mul_le_mul_right (regs.wl - regs.cycleCl)
      (Nat.div_le_div_right (c := regs.cycleCl) h.le)
    omega
  · exact h

/-- The condition under which nothing is lost between packets: the bytes of a vector
that a packet begins and does not end, and the source vectors of a cycle that it
begins and does not end, never make up one together. -/
def KeepsVectors (regs : UnpackRegs) (sizes : List ℕ) : Prop :=
  (sizes.map (· % nVifT (regs.cmd % 16))).sum < nVifT (regs.cmd % 16) ∧
    (regs.isFill = true →
      ((sizes.map (· / nVifT (regs.cmd % 16))).map (· % regs.cycleCl)).sum < regs.cycleCl)

/-- The output vectors that are counted packet by packet. -/
def countedVectors (regs : UnpackRegs) (sizes : List ℕ) : ℕ :=
  (sizes.map fun size => outputVectors regs (size / nVifT (regs.cmd % 16))).sum

lemma KeepsVectors.append {front back : List ℕ} (h : KeepsVectors regs (front ++ back)) :
    KeepsVectors regs front := by
  refine ⟨FloorSum.sum_mod_append_lt h.1, fun hfill => ?_⟩
  have hcycle := h.2 hfill
  rw [List.map_append] at hcycle
  exact FloorSum.sum_mod_append_lt hcycle

lemma countedVectors_eq (sizes : List ℕ) :
    countedVectors regs sizes =
      if regs.isFill then
        ((sizes.map (· / nVifT (regs.cmd % 16))).map (· / regs.cycleCl)).sum *
          (regs.wl - regs.cycleCl) + (sizes.map (· / nVifT (regs.cmd % 16))).sum
      else (sizes.map (· / nVifT (regs.cmd % 16))).sum := by
  unfold countedVectors outputVectors
  split
  · induction sizes with
    | nil => simp
    | cons size sizes ih =>
      simp only [List.map_cons, List.sum_cons, Nat.add_mul] at ih ⊢
      omega
  · rfl

/-- Counting packet by packet never counts too much, and is right exactly when
nothing is lost. -/
theorem countedVectors_spec (hsize : 0 < nVifT (regs.cmd % 16))
    (hcl : regs.isFill = true → 0 < regs.cycleCl) (sizes : List ℕ) :
    countedVectors regs sizes ≤ outputVectors regs (sizes.sum / nVifT (regs.cmd % 16)) ∧
      (countedVectors regs sizes = outputVectors regs (sizes.sum / nVifT (regs.cmd % 16)) ↔
        KeepsVectors regs sizes) := by
  -- the counted vectors against those of the vectors that are whole in a packet
  have hwhole : countedVectors regs sizes ≤
        outputVectors regs (sizes.map (· / nVifT (regs.cmd % 16))).sum ∧
      (countedVectors regs sizes =
          outputVectors regs (sizes.map (· / nVifT (regs.cmd % 16))).sum ↔
        (regs.isFill = true →
          ((sizes.map (· / nVifT (regs.cmd % 16))).map (· % regs.cycleCl)).sum <
            regs.cycleCl)) := by
    rw [countedVectors_eq, outputVectors]
    cases hfill : regs.isFill with
    | false => exact ⟨le_rfl, iff_of_true rfl fun h => nomatch h⟩
    | true =>
      have hlt := isFill_iff.mp hfill
      have hle := FloorSum.sum_div_le (sizes.map (· / nVifT (regs.cmd % 16))) (hcl hfill)
      simp only [if_true, forall_const]
      refine ⟨Nat.add_le_add_right (Nat.mul_le_mul_right _ hle) _, ?_⟩
      rw [Nat.add_right_cancel_iff, Nat.mul_left_inj (by omega),
        FloorSum.sum_div_eq_iff _ (hcl hfill)]
  have hsum := FloorSum.sum_div_le sizes hsize
  rw [KeepsVectors, ← FloorSum.sum_div_eq_iff sizes hsize, ← hwhole.2]
  rcases hsum.lt_or_eq with hlt | heq
  · have hmore := @outputVectors_lt regs _ _ hlt
    exact ⟨by omega, iff_of_false (by omega) fun h => absurd h.1 hlt.ne⟩
  · rw [heq] at hwhole ⊢
    exact ⟨hwhole.1, ⟨fun h => ⟨rfl, h⟩, And.right⟩⟩

end VitaSX2.Vif
