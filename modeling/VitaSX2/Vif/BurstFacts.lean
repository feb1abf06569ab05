/-
The burst paths of an UNPACK store the vectors of the plain loop.

A contiguous burst walks beside the plain loop: its destinations do not wrap, so
the masked destination of every vector is the next qword.  Groups of stores are
unrolled turns of one vector; a loop that keeps the row in a register has the
row of the state at every turn.
-/
import VitaSX2.Vif.Burst

namespace VitaSX2.Vif

open VitaSX2.Vu (extendU8)

/-! ### Destinations -/

lemma and_shiftLeft_four (n m : ℕ) : n &&& m <<< 4 = (n >>> 4 &&& m) <<< 4 := by
  apply Nat.eq_of_testBit_eq
  intro i
  simp only [Nat.testBit_and, Nat.testBit_shiftLeft, Nat.testBit_shiftRight]
  by_cases h : 4 ≤ i
  · simp [h, Nat.add_sub_cancel' h]
  · simp [h]

lemma vitaVifVuMemPtr_eq (unit : VifUnit) (offset : BitVec 32) :
    vitaVifVuMemPtr unit offset = offset.toNat / 16 % (vuMemSize unit / 16) * 16 := by
  have hmask : ∀ n bits : ℕ, n &&& (2 ^ bits - 1) <<< 4 = n / 16 % 2 ^ bits * 16 := by
    intro n bits
    rw [and_shiftLeft_four, Nat.and_two_pow_sub_one_eq_mod, Nat.shiftRight_eq_div_pow,
      Nat.shiftLeft_eq]
  cases unit
  · exact (BitVec.toNat_and _ _).trans (hmask _ 8)
  · exact (BitVec.toNat_and _ _).trans (hmask _ 10)

/-- A destination inside the memory is not wrapped. -/
lemma vitaVifVuMemPtr_add {unit : VifUnit} {offset : BitVec 32} {distance : ℕ}
    (haligned : distance % 16 = 0)
    (h : vitaVifVuMemPtr unit offset + distance < vuMemSize unit) :
    vitaVifVuMemPtr unit (offset + BitVec.ofNat 32 distance) =
      vitaVifVuMemPtr unit offset + distance := by
  have hlt := offset.isLt
  cases unit <;>
    simp only [vitaVifVuMemPtr_eq, vuMemSize, BitVec.toNat_add, BitVec.toNat_ofNat] at h ⊢ <;>
    omega

/-! ### The cursor of the plain loop -/

section Contiguous

variable {unit : VifUnit} {regs : UnpackRegs} {state : UnpackState}

lemma turns_of_ne_zero {num : BitVec 32} (h : num ≠ 0) : turns num = num.toNat := if_neg h

/-- The plain loop beside a contiguous one, in front of the vector `i`. -/
structure Alongside (regs : UnpackRegs) (state : UnpackState) (i : ℕ) (loop : UnpackLoop)
    (burst : BurstLoop) : Prop where
  vector : loop.state.vector = burst.vector
  generated : loop.generatedIteration = burst.generatedIteration
  index : burst.i = i
  data : loop.data = i * nVifT regs.format
  tagAddr : loop.state.tagAddr = state.tagAddr + BitVec.ofNat 32 (i * 16)
  cl : loop.state.cl = i % regs.cycleWl
  num : loop.state.num = state.num - BitVec.ofNat 32 i

lemma succ_mod_of_lt {i n : ℕ} (h : i % n + 1 < n) : (i + 1) % n = i % n + 1 := by
  rw [Nat.add_mod, Nat.mod_eq_of_lt (show 1 < n by omega), Nat.mod_eq_of_lt h]

lemma succ_mod_of_eq {i n : ℕ} (h : i % n + 1 = n) : (i + 1) % n = 0 := by
  rw [← Nat.mod_add_mod, h, Nat.mod_self]

/-- One vector. -/
lemma Alongside.step {kernel : VectorKernel} {i : ℕ} {loop : UnpackLoop} {burst : BurstLoop}
    (hcycle : regs.cycleCl = regs.cycleWl) (hwl : 0 < regs.cycleWl)
    (hfits : vuMemOffset unit state + i * 16 < vuMemSize unit)
    (h : Alongside regs state i loop burst) :
    Alongside regs state (i + 1) (unpackTurn unit regs false kernel loop)
      (burstTurn regs (· % regs.cycleWl) kernel (vuMemOffset unit state) burst) := by
  have hdest : vitaVifVuMemPtr unit loop.state.tagAddr = vuMemOffset unit state + i * 16 := by
    rw [h.tagAddr]
    exact vitaVifVuMemPtr_add (Nat.mul_mod_left i 16) hfits
  have hskip : regs.skipSize = 0#32 := by
    rw [UnpackRegs.skipSize, hcycle, BitVec.sub_self]
    exact BitVec.zero_mul
  have haddr : loop.state.tagAddr + 16 = state.tagAddr + BitVec.ofNat 32 ((i + 1) * 16) := by
    rw [h.tagAddr, Nat.add_mul, BitVec.ofNat_add, BitVec.add_assoc]
    rfl
  have hnum : loop.state.num - 1 = state.num - BitVec.ofNat 32 (i + 1) := by
    rw [h.num, BitVec.ofNat_add, BitVec.sub_sub]
    rfl
  have hmod := Nat.mod_lt i hwl
  unfold unpackTurn UnpackLoop.advance burstTurn
  simp only [Bool.false_eq_true, if_false]
  split
  next hlast =>
    have hlast : i % regs.cycleWl + 1 = regs.cycleWl := by
      rw [h.cl] at hlast
      omega
    constructor
    · simp only [h.vector, h.cl, h.data, h.generated, hdest, h.index]
    · simp only [h.generated]
    · simp only [h.index]
    · simp only [h.data, Nat.add_mul, Nat.one_mul]
    · simp only [hskip, BitVec.add_zero, haddr]
    · simp only [succ_mod_of_eq hlast]
    · exact hnum
  next hmore =>
    have hmore : i % regs.cycleWl + 1 < regs.cycleWl := by
      rw [h.cl] at hmore
      omega
    constructor
    · simp only [h.vector, h.cl, h.data, h.generated, hdest, h.index]
    · simp only [h.generated]
    · simp only [h.index]
    · simp only [h.data, Nat.add_mul, Nat.one_mul]
    · exact haddr
    · simp only [h.cl, succ_mod_of_lt hmore]
    · exact hnum

/-- A contiguous loop with the cycle of its vectors is the plain loop. -/
theorem unpackLoop_contiguous {kernel : VectorKernel} (hcycle : regs.cycleCl = regs.cycleWl)
    (hwl : 0 < regs.cycleWl) (hwl' : regs.cycleWl < 256) (hcl : state.cl = 0)
    (hnum : state.num ≠ 0)
    (hfits : vuMemOffset unit state + state.num.toNat * 16 ≤ vuMemSize unit) :
    unpackLoop unit regs false kernel state =
      finishBurst regs state
        (burstLoop regs (· % regs.cycleWl) kernel (vuMemOffset unit state) state.num.toNat
          state.vector) := by
  have hstart : Alongside regs state 0 { state := state } { vector := state.vector } :=
    { vector := rfl
      generated := rfl
      index := rfl
      data := (Nat.zero_mul _).symm
      tagAddr := by simp
      cl := by rw [hcl, Nat.zero_mod]
      num := by simp }
  have hend : Alongside regs state state.num.toNat
      ((unpackTurn unit regs false kernel)^[state.num.toNat] { state := state })
      ((burstTurn regs (· % regs.cycleWl) kernel (vuMemOffset unit state))^[state.num.toNat]
        { vector := state.vector }) :=
    CountedLoop.simulation (Alongside regs state)
      (fun i hi _ _ h => h.step hcycle hwl (by omega)) hstart
  have hmod := Nat.mod_lt state.num.toNat hwl
  rw [unpackLoop, turns_of_ne_zero hnum]
  refine UnpackState.ext hend.vector hend.tagAddr ?_ ?_
  · rw [hend.cl, finishBurst, Nat.mod_eq_of_lt (by omega : state.num.toNat % regs.cycleWl < 2 ^ 8)]
  · rw [hend.num, BitVec.ofNat_toNat, BitVec.setWidth_eq, BitVec.sub_self]
    rfl

/-- The cycle does not matter to a kernel that does not read it. -/
lemma burstLoop_cl {kernel : VectorKernel} {cl cl' : ℕ → ℕ} {dest count : ℕ}
    (h : ∀ i < count, ∀ offset iteration destination vector,
      kernel (cl i) offset iteration destination vector =
        kernel (cl' i) offset iteration destination vector)
    (vector : VectorState) :
    burstLoop regs cl kernel dest count vector = burstLoop regs cl' kernel dest count vector := by
  have hend : ((burstTurn regs cl kernel dest)^[count] { vector := vector } : BurstLoop) =
        (burstTurn regs cl' kernel dest)^[count] { vector := vector } ∧
      ((burstTurn regs cl kernel dest)^[count] { vector := vector } : BurstLoop).i = count := by
    refine CountedLoop.simulation (fun i (a b : BurstLoop) => a = b ∧ a.i = i) ?_ ⟨rfl, rfl⟩
    rintro i hi a b ⟨rfl, rfl⟩
    refine ⟨?_, rfl⟩
    simp only [burstTurn, h _ hi]
  rw [burstLoop, burstLoop, hend.1]

end Contiguous

/-! ### Groups of stores -/

/-- One vector of a store loop. -/
def storeTurn (store : ℕ → ℕ → VectorState → VectorState) (vsize : ℕ) (cursor : StoreCursor) :
    StoreCursor :=
  cursor.move (store cursor.dest cursor.src cursor.vector) 16 vsize

section Groups

variable {regs : UnpackRegs} (source : ℕ → Byte)

/-- A kernel that reads neither the cycle nor the iteration runs as a store loop. -/
lemma burstLoop_eq_storeTurn {kernel : VectorKernel} {store : ℕ → ℕ → VectorState → VectorState}
    {cl : ℕ → ℕ} {dest count : ℕ}
    (h : ∀ cl offset iteration destination vector,
      kernel cl offset iteration destination vector = store destination offset vector)
    (vector : VectorState) :
    burstLoop regs cl kernel dest count vector =
      ((storeTurn store (nVifT regs.format))^[count] ⟨vector, dest, 0⟩).vector := by
  let R (i : ℕ) (burst : BurstLoop) (cursor : StoreCursor) : Prop :=
    burst.vector = cursor.vector ∧ burst.i = i ∧ cursor.dest = dest + i * 16 ∧
      cursor.src = i * nVifT regs.format
  have hstep : ∀ i < count, ∀ burst cursor, R i burst cursor →
      R (i + 1) (burstTurn regs cl kernel dest burst)
        (storeTurn store (nVifT regs.format) cursor) := by
    rintro i - burst cursor ⟨hvector, rfl, hdest, hsrc⟩
    refine ⟨?_, rfl, ?_, ?_⟩
    · simp only [burstTurn, storeTurn, StoreCursor.move, h, hvector, hdest, hsrc]
    · simp only [storeTurn, StoreCursor.move, hdest, Nat.add_mul, Nat.one_mul, Nat.add_assoc]
    · simp only [storeTurn, StoreCursor.move, hsrc, Nat.add_mul, Nat.one_mul]
  have hstart : R 0 { vector := vector } ⟨vector, dest, 0⟩ :=
    ⟨rfl, rfl, (congrArg (dest + ·) (Nat.zero_mul 16)).symm, (Nat.zero_mul _).symm⟩
  exact (CountedLoop.simulation R hstep hstart).1

lemma copyGroup_64 : copyGroup (vitaVifCopy64Bytes source) 64 = (copyQword source)^[4] := rfl

lemma copyGroup_128 :
    copyGroup (vitaVifCopy128Bytes source) 128 = (copyGroup (vitaVifCopy64Bytes source) 64)^[2] :=
  rfl

lemma copyGroup_256 :
    copyGroup (vitaVifCopy256Bytes source) 256 =
      (copyGroup (vitaVifCopy128Bytes source) 128)^[2] := rfl

lemma copyGroup_1024 :
    copyGroup (vitaVifCopy1024Bytes source) 1024 =
      (copyGroup (vitaVifCopy256Bytes source) 256)^[4] := rfl

/-- The copy burst copies its qwords one after another. -/
theorem vitaVifCopyQwordBurst_eq (dest count : ℕ) (state : VectorState) :
    vitaVifCopyQwordBurst source dest count state =
      ((copyQword source)^[count] ⟨state, dest, 0⟩).vector := by
  simp only [vitaVifCopyQwordBurst, copyGroup_1024, copyGroup_256, copyGroup_128, copyGroup_64,
    ← Function.iterate_mul, ← Function.iterate_add_apply]
  congr 3
  omega

end Groups
section Groups

variable {regs : UnpackRegs} (source : ℕ → Byte)

lemma vmovl_congr {halves other : Lanes 4 16} (usn : Bool) (h : halves = other) :
    (if usn then vmovlU 32 halves else vmovlS 32 halves) =
      if usn then vmovlU 32 other else vmovlS 32 other := by rw [h]

lemma widenPair_eq (src : ℕ) (usn : Bool) :
    widenPair source src usn =
      (vitaVifLoadV4_16VectorNeon source src usn,
        vitaVifLoadV4_16VectorNeon source (src + 8) usn) := by
  have hhigh : vgetHigh 4 (vld1U16 8 source src) = vld1U16 4 source (src + 8) := by
    funext lane
    simp only [vgetHigh, vld1U16]
    congr 1
    omega
  cases usn
  · exact Prod.ext rfl (congrArg (vmovlS 32) hhigh)
  · exact Prod.ext rfl (congrArg (vmovlU 32) hhigh)

lemma widenQuad_eq (src : ℕ) (usn : Bool) (index : Fin 4) :
    widenQuad source src usn index =
      vitaVifLoadV4_8VectorNeon source (src + 4 * index) usn := by
  have hlane : ∀ lane : Fin 4, widenQuad source src usn index lane =
      element source 2 usn (src + 4 * index) lane.val := by
    intro lane
    change _ = extendU8 (source (src + 4 * index + lane)) usn
    cases usn
    · fin_cases index <;>
        refine (signExtend_signExtend _).trans (congrArg (BitVec.signExtend 32) ?_) <;>
        simp [vgetLow, vgetHigh, vld1qU8, ← Nat.add_assoc]
    · fin_cases index <;>
        refine (setWidth_setWidth _).trans (congrArg (BitVec.setWidth 32) ?_) <;>
        simp [vgetLow, vgetHigh, vld1qU8, ← Nat.add_assoc]
  rw [vitaVifLoadV4_8VectorNeon_eq]
  exact funext hlane

lemma widenQuad_vectors (src : ℕ) (usn : Bool) :
    widenQuad source src usn 0 = vitaVifLoadV4_8VectorNeon source src usn ∧
      widenQuad source src usn 1 = vitaVifLoadV4_8VectorNeon source (src + 4) usn ∧
      widenQuad source src usn 2 = vitaVifLoadV4_8VectorNeon source (src + 4 + 4) usn ∧
      widenQuad source src usn 3 = vitaVifLoadV4_8VectorNeon source (src + 4 + 4 + 4) usn :=
  ⟨widenQuad_eq source src usn 0, widenQuad_eq source src usn 1, widenQuad_eq source src usn 2,
    widenQuad_eq source src usn 3⟩

/-- The V4-16 burst stores its vectors one after another. -/
theorem vitaVifStoreV4_16PairBurstNeon_eq (dest count : ℕ) (usn : Bool) (state : VectorState) :
    vitaVifStoreV4_16PairBurstNeon source dest count usn state =
      ((storeTurn (fun dest src =>
        vitaVifStoreVectorNeon dest (vitaVifLoadV4_16VectorNeon source src usn)) 8)^[count]
        ⟨state, dest, 0⟩).vector := by
  have hpair : v4_16Pair source usn = (storeTurn (fun dest src =>
      vitaVifStoreVectorNeon dest (vitaVifLoadV4_16VectorNeon source src usn)) 8)^[2] := by
    funext cursor
    rw [v4_16Pair, widenPair_eq]
    rfl
  rw [← CountedLoop.groups _ 2, vitaVifStoreV4_16PairBurstNeon]
  rw [hpair]
  obtain hrest | hrest : count % 2 = 0 ∨ count % 2 = 1 := by omega
  · rw [if_neg (by omega), hrest]
    rfl
  · rw [if_pos (by omega), hrest]
    rfl

/-- The V4-8 burst stores its vectors one after another. -/
theorem vitaVifStoreV4_8QuadBurstNeon_eq (dest count : ℕ) (usn : Bool) (state : VectorState) :
    vitaVifStoreV4_8QuadBurstNeon source dest count usn state =
      ((storeTurn (fun dest src =>
        vitaVifStoreVectorNeon dest (vitaVifLoadV4_8VectorNeon source src usn)) 4)^[count]
        ⟨state, dest, 0⟩).vector := by
  have hquad : v4_8Quad source usn = (storeTurn (fun dest src =>
      vitaVifStoreVectorNeon dest (vitaVifLoadV4_8VectorNeon source src usn)) 4)^[4] := by
    funext cursor
    obtain ⟨h0, h1, h2, h3⟩ := widenQuad_vectors source cursor.src usn
    simp only [v4_8Quad, h0, h1, h2, h3]
    rfl
  have hrest : count - count / 4 * 4 = count % 4 := by omega
  rw [← CountedLoop.groups _ 4, vitaVifStoreV4_8QuadBurstNeon]
  rw [hquad, hrest]
  rfl

end Groups

/-! ### MODE bursts -/

section ModeBursts

variable (regs : UnpackRegs) (source : ℕ → Byte)

/-- A vector of an unmasked burst with MODE. -/
def modeTurn (mode : ℕ) (load : ℕ → Lanes 4 32) (vsize : ℕ) : StoreCursor → StoreCursor :=
  storeTurn (fun dest src => storeLanes mode false regs 0 dest (load src)) vsize

/-- The register row of a mode loop as the row of the state. -/
def ModeCursor.toStore (cursor : ModeCursor) : StoreCursor :=
  ⟨⟨cursor.memory, cursor.row⟩, cursor.dest, cursor.src⟩

lemma modeTurn_one (load : ℕ → Lanes 4 32) (vsize : ℕ) (cursor : StoreCursor) :
    modeTurn regs 1 load vsize cursor =
      cursor.move (vitaVifStoreVectorNeon cursor.dest
        (vadd (load cursor.src) cursor.vector.maskRow) cursor.vector) 16 vsize := by
  rw [modeTurn, storeTurn, storeLanes_unmasked]
  rfl

lemma modeTurn_two (load : ℕ → Lanes 4 32) (vsize : ℕ) (cursor : StoreCursor) :
    modeTurn regs 2 load vsize cursor =
      cursor.move
        { memory := vst1qU32 cursor.vector.memory cursor.dest
            (vadd (load cursor.src) cursor.vector.maskRow)
          maskRow := vadd (load cursor.src) cursor.vector.maskRow } 16 vsize := by
  rw [modeTurn, storeTurn, storeLanes_unmasked]
  rfl

lemma modeTurn_three (load : ℕ → Lanes 4 32) (vsize : ℕ) (cursor : StoreCursor) :
    modeTurn regs 3 load vsize cursor =
      cursor.move
        { memory := vst1qU32 cursor.vector.memory cursor.dest (load cursor.src)
          maskRow := load cursor.src } 16 vsize := by
  rw [modeTurn, storeTurn, storeLanes_unmasked]
  rfl

/-- MODE 1 leaves the row. -/
lemma iterate_modeTurn_one_row (load : ℕ → Lanes 4 32) (vsize count : ℕ) (cursor : StoreCursor) :
    ((modeTurn regs 1 load vsize)^[count] cursor).vector.maskRow = cursor.vector.maskRow := by
  refine CountedLoop.invariant
    (fun _ (after : StoreCursor) => after.vector.maskRow = cursor.vector.maskRow) ?_ rfl
  intro i _ after h
  rw [modeTurn_one]
  exact h

/-- The V4-32 loop with its row in a register. -/
theorem v4_32ModeLoop_eq {mode : ℕ} (hmode : mode = 1 ∨ mode = 2 ∨ mode = 3) (dest count : ℕ)
    (state : VectorState) :
    v4_32ModeLoop source dest count mode state =
      ((modeTurn regs mode (vld1qU32 source) 16)^[count] ⟨state, dest, 0⟩).vector := by
  have hturn : Function.Semiconj ModeCursor.toStore (v4_32ModeTurn source mode)
      (modeTurn regs mode (vld1qU32 source) 16) := by
    intro cursor
    obtain rfl | rfl | rfl := hmode
    · rw [modeTurn_one]
      rfl
    · rw [modeTurn_two]
      rfl
    · rw [modeTurn_three]
      rfl
  have hend := hturn.iterate_right count ⟨state.memory, state.maskRow, dest, 0⟩
  rw [v4_32ModeLoop]
  refine VectorState.ext (congrArg (·.vector.memory) hend) ?_
  obtain rfl | hrow := hmode
  · exact (iterate_modeTurn_one_row regs (vld1qU32 source) 16 count ⟨state, dest, 0⟩).symm
  · exact (if_pos hrow).trans (congrArg (·.vector.maskRow) hend)

/-- MODE 2 of the widening bursts. -/
lemma modeTwoLoop_eq (load : ℕ → Lanes 4 32) (dest count vsize : ℕ) (state : VectorState) :
    modeTwoLoop load dest count vsize state =
      ((modeTurn regs 2 load vsize)^[count] ⟨state, dest, 0⟩).vector := by
  have hturn : Function.Semiconj ModeCursor.toStore (modeTwoTurn load vsize)
      (modeTurn regs 2 load vsize) := by
    intro cursor
    rw [modeTurn_two]
    rfl
  have hend := hturn.iterate_right count ⟨state.memory, state.maskRow, dest, 0⟩
  exact VectorState.ext (congrArg (·.vector.memory) hend) (congrArg (·.vector.maskRow) hend)

/-- A mode loop in MODE 1 or 3 beside the plain one: in MODE 1 the row is not
touched, in MODE 3 it is the last vector. -/
def BesideMode (mode : ℕ) (row : Lanes 4 32) (_ : ℕ) (cursor : ModeCursor) (plain : StoreCursor) :
    Prop :=
  cursor.toStore = plain ∧ (mode = 1 → cursor.row = row)

lemma BesideMode.single {mode : ℕ} (hmode : mode = 1 ∨ mode = 3) (load : ℕ → Lanes 4 32)
    (vsize : ℕ) {i : ℕ} {row : Lanes 4 32} {cursor : ModeCursor} {plain : StoreCursor}
    (h : BesideMode mode row i cursor plain) :
    BesideMode mode row (i + 1) (modeSingle load vsize mode row cursor)
      (modeTurn regs mode load vsize plain) := by
  obtain ⟨rfl, hrow⟩ := h
  obtain rfl | rfl := hmode
  · obtain rfl := hrow rfl
    refine ⟨?_, fun _ => rfl⟩
    rw [modeTurn_one]
    rfl
  · refine ⟨?_, fun h => absurd h (by decide)⟩
    rw [modeTurn_three]
    rfl

lemma BesideMode.pair {mode : ℕ} (hmode : mode = 1 ∨ mode = 3) (usn : Bool) {i : ℕ}
    {row : Lanes 4 32} {cursor : ModeCursor} {plain : StoreCursor}
    (h : BesideMode mode row i cursor plain) :
    BesideMode mode row (i + 1) (v4_16ModePair source usn mode row cursor)
      ((modeTurn regs mode (vitaVifLoadV4_16VectorNeon source · usn) 8)^[2] plain) := by
  obtain ⟨rfl, hrow⟩ := h
  obtain rfl | rfl := hmode
  · obtain rfl := hrow rfl
    refine ⟨?_, fun _ => rfl⟩
    simp [v4_16ModePair, widenPair_eq, modeTurn_one, ModeCursor.toStore, ModeCursor.store,
      StoreCursor.move, addRow, vitaVifStoreVectorNeon, Nat.add_assoc]
  · refine ⟨?_, fun h => absurd h (by decide)⟩
    simp [v4_16ModePair, widenPair_eq, modeTurn_three, ModeCursor.toStore, ModeCursor.store,
      StoreCursor.move, addRow, vitaVifStoreVectorNeon, Nat.add_assoc]

/-- Four turns of a mode loop in MODE 1. -/
lemma modeTurn_one_four (load : ℕ → Lanes 4 32) (vsize : ℕ) (cursor : StoreCursor) :
    (modeTurn regs 1 load vsize)^[4] cursor =
      cursor.move
        { memory := vst1qU32 (vst1qU32 (vst1qU32 (vst1qU32 cursor.vector.memory cursor.dest
            (vadd (load cursor.src) cursor.vector.maskRow)) (cursor.dest + 16)
            (vadd (load (cursor.src + vsize)) cursor.vector.maskRow)) (cursor.dest + 32)
            (vadd (load (cursor.src + vsize + vsize)) cursor.vector.maskRow)) (cursor.dest + 48)
            (vadd (load (cursor.src + vsize + vsize + vsize)) cursor.vector.maskRow)
          maskRow := cursor.vector.maskRow } 64 (vsize + vsize + vsize + vsize) := by
  simp only [Function.iterate_succ_apply, Function.iterate_zero_apply, modeTurn_one,
    vitaVifStoreVectorNeon, StoreCursor.move, Nat.add_assoc, Nat.reduceAdd]

/-- Four turns of a mode loop in MODE 3. -/
lemma modeTurn_three_four (load : ℕ → Lanes 4 32) (vsize : ℕ) (cursor : StoreCursor) :
    (modeTurn regs 3 load vsize)^[4] cursor =
      cursor.move
        { memory := vst1qU32 (vst1qU32 (vst1qU32 (vst1qU32 cursor.vector.memory cursor.dest
            (load cursor.src)) (cursor.dest + 16) (load (cursor.src + vsize))) (cursor.dest + 32)
            (load (cursor.src + vsize + vsize))) (cursor.dest + 48)
            (load (cursor.src + vsize + vsize + vsize))
          maskRow := load (cursor.src + vsize + vsize + vsize) } 64
        (vsize + vsize + vsize + vsize) := by
  simp only [Function.iterate_succ_apply, Function.iterate_zero_apply, modeTurn_three,
    StoreCursor.move, Nat.add_assoc, Nat.reduceAdd]

lemma BesideMode.quad {mode : ℕ} (hmode : mode = 1 ∨ mode = 3) (usn : Bool) {i : ℕ}
    {row : Lanes 4 32} {cursor : ModeCursor} {plain : StoreCursor}
    (h : BesideMode mode row i cursor plain) :
    BesideMode mode row (i + 1) (v4_8ModeQuad source usn mode row cursor)
      ((modeTurn regs mode (vitaVifLoadV4_8VectorNeon source · usn) 4)^[4] plain) := by
  obtain ⟨rfl, hrow⟩ := h
  obtain ⟨h0, h1, h2, h3⟩ := widenQuad_vectors source cursor.src usn
  obtain rfl | rfl := hmode
  · obtain rfl := hrow rfl
    refine ⟨?_, fun _ => rfl⟩
    rw [modeTurn_one_four, v4_8ModeQuad, h0, h1, h2, h3]
    simp only [ModeCursor.toStore, ModeCursor.store, addRow, if_true, vitaVifStoreVectorNeon,
      StoreCursor.move]
  · refine ⟨?_, fun h => absurd h (by decide)⟩
    rw [modeTurn_three_four, v4_8ModeQuad, h0, h1, h2, h3]
    simp only [ModeCursor.toStore, ModeCursor.store, addRow, if_neg (show ¬3 = 1 by decide),
      vitaVifStoreVectorNeon, StoreCursor.move]

/-- What a MODE 1 or MODE 3 burst leaves is what the plain one leaves. -/
lemma BesideMode.finish {mode : ℕ} (hmode : mode = 1 ∨ mode = 3) {load : ℕ → Lanes 4 32}
    {vsize i count dest : ℕ} {state : VectorState} {cursor : ModeCursor}
    (h : BesideMode mode state.maskRow i cursor
      ((modeTurn regs mode load vsize)^[count] ⟨state, dest, 0⟩)) :
    ({ memory := cursor.memory, maskRow := if mode = 3 then cursor.row else state.maskRow } :
        VectorState) = ((modeTurn regs mode load vsize)^[count] ⟨state, dest, 0⟩).vector := by
  refine VectorState.ext (congrArg (·.vector.memory) h.1) ?_
  obtain rfl | rfl := hmode
  · exact (iterate_modeTurn_one_row regs load vsize count ⟨state, dest, 0⟩).symm
  · exact congrArg (·.vector.maskRow) h.1

/-- The vector behind the pairs of an odd number of vectors. -/
lemma ite_odd {S : Type*} (turn : S → S) (count : ℕ) (s : S) :
    (if count % 2 ≠ 0 then turn s else s) = turn^[count % 2] s := by
  obtain h | h : count % 2 = 0 ∨ count % 2 = 1 := by omega
  · rw [h]
    rfl
  · rw [h]
    rfl

/-- The V4-16 burst with MODE. -/
theorem vitaVifStoreV4_16ModeBurstNeon_eq {mode : ℕ} (hmode : mode = 1 ∨ mode = 2 ∨ mode = 3)
    (dest count : ℕ) (usn : Bool) (state : VectorState) :
    vitaVifStoreV4_16ModeBurstNeon source dest count usn mode state =
      ((modeTurn regs mode (vitaVifLoadV4_16VectorNeon source · usn) 8)^[count]
        ⟨state, dest, 0⟩).vector := by
  unfold vitaVifStoreV4_16ModeBurstNeon
  by_cases htwo : mode = 2
  · subst htwo
    exact modeTwoLoop_eq regs _ dest count 8 state
  · have hmode : mode = 1 ∨ mode = 3 := by omega
    have hstart : BesideMode mode state.maskRow 0 ⟨state.memory, state.maskRow, dest, 0⟩
        ⟨state, dest, 0⟩ := ⟨rfl, fun _ => rfl⟩
    have hpairs := CountedLoop.simulation (BesideMode mode state.maskRow)
      (fun (i : ℕ) (_ : i < count / 2) _ _ h => h.pair regs source hmode usn) hstart
    have hend : BesideMode mode state.maskRow (count / 2 + count % 2) _
        ((modeTurn regs mode (vitaVifLoadV4_16VectorNeon source · usn) 8)^[count % 2] _) :=
      CountedLoop.simulation (fun i => BesideMode mode state.maskRow (count / 2 + i))
        (fun (i : ℕ) (_ : i < count % 2) _ _ h =>
          h.single regs hmode (vitaVifLoadV4_16VectorNeon source · usn) 8) hpairs
    rw [CountedLoop.groups] at hend
    rw [if_pos htwo, ← BesideMode.finish regs hmode hend, ← ite_odd]

/-- The V4-8 burst with MODE. -/
theorem vitaVifStoreV4_8ModeBurstNeon_eq {mode : ℕ} (hmode : mode = 1 ∨ mode = 2 ∨ mode = 3)
    (dest count : ℕ) (usn : Bool) (state : VectorState) :
    vitaVifStoreV4_8ModeBurstNeon source dest count usn mode state =
      ((modeTurn regs mode (vitaVifLoadV4_8VectorNeon source · usn) 4)^[count]
        ⟨state, dest, 0⟩).vector := by
  unfold vitaVifStoreV4_8ModeBurstNeon
  by_cases htwo : mode = 2
  · subst htwo
    exact modeTwoLoop_eq regs _ dest count 4 state
  · have hmode : mode = 1 ∨ mode = 3 := by omega
    have hstart : BesideMode mode state.maskRow 0 ⟨state.memory, state.maskRow, dest, 0⟩
        ⟨state, dest, 0⟩ := ⟨rfl, fun _ => rfl⟩
    have hquads := CountedLoop.simulation (BesideMode mode state.maskRow)
      (fun (i : ℕ) (_ : i < count / 4) _ _ h => h.quad regs source hmode usn) hstart
    have hend : BesideMode mode state.maskRow (count / 4 + count % 4) _
        ((modeTurn regs mode (vitaVifLoadV4_8VectorNeon source · usn) 4)^[count % 4] _) :=
      CountedLoop.simulation (fun i => BesideMode mode state.maskRow (count / 4 + i))
        (fun (i : ℕ) (_ : i < count % 4) _ _ h =>
          h.single regs hmode (vitaVifLoadV4_8VectorNeon source · usn) 4) hquads
    have hrest : count % 4 = count - count / 4 * 4 := by omega
    rw [CountedLoop.groups, hrest] at hend
    rw [if_pos htwo, ← BesideMode.finish regs hmode hend]

end ModeBursts

/-! ### The contiguous paths -/

section Paths

variable {unit : VifUnit} {regs : UnpackRegs} {source : ℕ → Byte} {isFill : Bool}
  {state after : UnpackState}

/-- Without a mask a vector does not depend on the cycle. -/
lemma laneKernel_unmasked (mode : ℕ) (words : ℕ → ℕ → Lanes 4 32)
    (cl cl' offset iteration destination : ℕ) (vector : VectorState) :
    laneKernel regs mode false words cl offset iteration destination vector =
      laneKernel regs mode false words cl' offset iteration destination vector := by
  simp only [laneKernel, storeLanes_unmasked]

lemma plainKernel_unmasked (hmask : regs.doMask = false) :
    plainKernel regs source = laneKernel regs (formatMode regs) false (formatWords regs source) := by
  rw [plainKernel, hmask]

/-- The burst loop of the command. -/
def plainBurst (unit : VifUnit) (regs : UnpackRegs) (source : ℕ → Byte) (state : UnpackState) :
    VectorState :=
  burstLoop regs (· % regs.cycleWl) (plainKernel regs source) (vuMemOffset unit state)
    state.num.toNat state.vector

/-- Without a mask any cycle gives the same vectors. -/
lemma plainBurst_eq (hmask : regs.doMask = false) (cl : ℕ → ℕ) :
    plainBurst unit regs source state =
      burstLoop regs cl (plainKernel regs source) (vuMemOffset unit state) state.num.toNat
        state.vector := by
  refine burstLoop_cl (fun i _ offset iteration destination vector => ?_) _
  rw [plainKernel_unmasked hmask]
  exact laneKernel_unmasked _ _ _ _ _ _ _ _

/-- A path that stores the vectors of the burst loop ends like the plain loop. -/
lemma finishBurst_eq (hcycle : contiguousCycle regs isFill state = true)
    (hfits : fitsInMemory unit state = true) (hwl : regs.cycleWl < 256) {vector : VectorState}
    (hvector : vector = plainBurst unit regs source state) :
    finishBurst regs state vector =
      unpackLoop unit regs isFill (plainKernel regs source) state := by
  simp only [contiguousCycle, Bool.and_eq_true, Bool.not_eq_true', beq_iff_eq, bne_iff_ne] at hcycle
  obtain ⟨⟨⟨⟨rfl, hcl⟩, hwl'⟩, hzero⟩, hnum⟩ := hcycle
  rw [unpackLoop_contiguous hcl (Nat.pos_of_ne_zero hwl') hwl hzero hnum (of_decide_eq_true hfits),
    hvector]
  rfl

lemma mode_of_unmasked (hmode : regs.mode % 4 = 0) : formatMode regs = 0 := by
  rw [formatMode, hmode, ite_self]

/-- What a guard with an end of memory admits. -/
lemma guards_of_some {guard fits : Bool} {taken : UnpackState}
    (h : (if guard then none else if !fits then none else some taken) = some after) :
    guard = false ∧ fits = true ∧ after = taken := by
  cases guard <;> cases fits <;> simp_all

theorem eq_of_trySAndV2Burst (hwl : regs.cycleWl < 256)
    (h : vitaVifTryFastSAndV2Burst unit regs source isFill state = some after) :
    after = unpackLoop unit regs isFill (plainKernel regs source) state := by
  obtain ⟨hguard, hfits, rfl⟩ := guards_of_some h
  simp only [Bool.or_eq_false_iff, Bool.not_eq_false', bne_eq_false_iff_eq] at hguard
  obtain ⟨⟨⟨hcycle, hmask⟩, hformat⟩, hmode⟩ := hguard
  have hsize : nVifT regs.format ≠ 0 ∧ vitaVifIsV3Format regs.format = false := by
    have hall : ∀ format < 16, vitaVifIsSOrV2Format format = true →
        nVifT format ≠ 0 ∧ vitaVifIsV3Format format = false := by decide
    exact hall _ format_lt hformat
  refine finishBurst_eq hcycle hfits hwl ?_
  rw [plainBurst_eq hmask (fun _ => 0), plainKernel_unmasked hmask, mode_of_unmasked hmode,
    vitaVifStorePlainUnmaskedVector_eq source hsize.1 hsize.2]

theorem eq_of_tryV3Burst (hwl : regs.cycleWl < 256)
    (h : vitaVifTryFastV3Burst unit regs source isFill state = some after) :
    after = unpackLoop unit regs isFill (plainKernel regs source) state := by
  obtain ⟨hguard, hfits, rfl⟩ := guards_of_some h
  simp only [Bool.or_eq_false_iff, Bool.not_eq_false', bne_eq_false_iff_eq] at hguard
  obtain ⟨⟨⟨hcycle, hmask⟩, hformat⟩, hmode⟩ := hguard
  have hsize : regs.format ≠ 0x0f ∧ nVifT regs.format ≠ 0 := by
    have hall : ∀ format < 16, vitaVifIsV3Format format = true →
        format ≠ 0x0f ∧ nVifT format ≠ 0 := by decide
    exact hall _ format_lt hformat
  have hkernel := fastKernel_eq source hsize.2
  rw [if_neg hsize.1, hmode, hmask] at hkernel
  refine finishBurst_eq hcycle hfits hwl ?_
  rw [plainBurst_eq hmask (fun _ => 0), hkernel]

theorem eq_of_tryV4_5Burst (hwl : regs.cycleWl < 256)
    (h : vitaVifTryFastV4_5Burst unit regs source isFill state = some after) :
    after = unpackLoop unit regs isFill (plainKernel regs source) state := by
  obtain ⟨hguard, hfits, rfl⟩ := guards_of_some h
  simp only [Bool.or_eq_false_iff, Bool.not_eq_false', bne_eq_false_iff_eq] at hguard
  obtain ⟨⟨hcycle, hmask⟩, hformat⟩ := hguard
  have hsize : nVifT regs.format ≠ 0 := by
    rw [hformat]
    decide
  have hkernel := fastKernel_eq source hsize
  rw [if_pos hformat, hmask] at hkernel
  refine finishBurst_eq hcycle hfits hwl ?_
  rw [plainBurst_eq hmask (fun _ => 0), hkernel]

theorem eq_of_tryModeMaskBurst (hwl : regs.cycleWl < 256)
    (h : vitaVifTryFastModeMaskBurst unit regs source isFill state = some after) :
    after = unpackLoop unit regs isFill (plainKernel regs source) state := by
  unfold vitaVifTryFastModeMaskBurst at h
  dsimp only at h
  have hcl : burstLoop regs (fun i => i % regs.cycleWl % 2 ^ 8) (plainKernel regs source)
      (vuMemOffset unit state) state.num.toNat state.vector = plainBurst unit regs source state ∨
      regs.cycleWl = 0 := by
    by_cases hzero : regs.cycleWl = 0
    · exact Or.inr hzero
    · refine Or.inl (burstLoop_cl (fun i _ offset iteration destination vector => ?_) _)
      have := Nat.mod_lt i (Nat.pos_of_ne_zero hzero)
      rw [Nat.mod_eq_of_lt (by omega : i % regs.cycleWl < 2 ^ 8)]
  split_ifs at h with hguard hsize hfits hformat
  all_goals
    obtain rfl := Option.some.inj h
    simp only [Bool.or_eq_true, Bool.not_eq_true', not_or, Bool.not_eq_false] at hguard hfits
    have hkernel := fastKernel_eq source (fun hzero => hsize (Or.inl hzero))
    have hwl' : regs.cycleWl ≠ 0 := by
      have hcycle := hguard.1
      simp only [contiguousCycle, Bool.and_eq_true, bne_iff_ne] at hcycle
      exact hcycle.1.1.2
    refine finishBurst_eq hguard.1 hfits hwl ?_
    rw [← hcl.resolve_right hwl', ← hkernel]
  · rw [if_pos hformat]
  · rw [if_neg hformat]

/-! ### The V4 paths -/

/-- The load of a V4 format. -/
def v4Load (regs : UnpackRegs) (source : ℕ → Byte) (offset : ℕ) : Lanes 4 32 :=
  if regs.format = 0x0c then vld1qU32 source offset
  else if regs.format = 0x0d then vitaVifLoadV4_16VectorNeon source offset regs.usn
  else vitaVifLoadV4_8VectorNeon source offset regs.usn

lemma formatWords_v4 (hformat : isV4Format regs.format = true) (offset iteration : ℕ) :
    formatWords regs source offset iteration = v4Load regs source offset := by
  simp only [isV4Format, decide_eq_true_eq] at hformat
  have hnot : regs.format ≠ 0x0f := by omega
  have hload := vitaVifLoadUnpackVectorNeon_eq source format_lt (by omega : regs.format % 4 ≠ 3)
    regs.usn offset iteration (vitaVifGeneratedAlignment regs regs.format)
  rw [formatWords, if_neg hnot]
  refine Option.some.inj (hload.symm.trans ?_)
  rw [v4Load]
  obtain h | h | h := hformat
  · rw [if_pos h, h]
    rfl
  · rw [if_neg (by omega), if_pos h, h]
    rfl
  · rw [if_neg (by omega), if_neg (by omega), h]
    rfl

/-- The vectors of a V4 command without a mask. -/
lemma plainBurst_v4 (hmask : regs.doMask = false) (hformat : isV4Format regs.format = true) :
    plainBurst unit regs source state =
      ((modeTurn regs (regs.mode % 4) (v4Load regs source) (nVifT regs.format))^[state.num.toNat]
        ⟨state.vector, vuMemOffset unit state, 0⟩).vector := by
  have hnot : regs.format ≠ 0x0f := by
    simp only [isV4Format, decide_eq_true_eq] at hformat
    omega
  rw [plainBurst_eq hmask (fun _ => 0)]
  refine burstLoop_eq_storeTurn (fun cl offset iteration destination vector => ?_) _
  rw [plainKernel_unmasked hmask, laneKernel_unmasked _ _ cl 0, laneKernel, formatMode,
    if_neg hnot, formatWords_v4 hformat]

/-- Without MODE a turn stores the loaded words. -/
lemma modeTurn_zero (load : ℕ → Lanes 4 32) (vsize : ℕ) :
    modeTurn regs 0 load vsize =
      storeTurn (fun dest src => vitaVifStoreVectorNeon dest (load src)) vsize := by
  funext cursor
  rw [modeTurn, storeTurn, storeLanes_unmasked]
  rfl

/-- The three V4 formats. -/
lemma v4_cases (source : ℕ → Byte) (hformat : isV4Format regs.format = true) :
    (regs.format = 0x0c ∧ v4Load regs source = vld1qU32 source ∧ nVifT regs.format = 16) ∨
      (regs.format = 0x0d ∧ v4Load regs source = (vitaVifLoadV4_16VectorNeon source · regs.usn) ∧
        nVifT regs.format = 8) ∨
      (regs.format = 0x0e ∧ v4Load regs source = (vitaVifLoadV4_8VectorNeon source · regs.usn) ∧
        nVifT regs.format = 4) := by
  simp only [isV4Format, decide_eq_true_eq] at hformat
  unfold v4Load
  obtain h | h | h := hformat
  · exact Or.inl ⟨h, funext fun offset => if_pos h, by rw [h]; rfl⟩
  · exact Or.inr (Or.inl ⟨h, by simp [h], by rw [h]; rfl⟩)
  · exact Or.inr (Or.inr ⟨h, by simp [h], by rw [h]; rfl⟩)

theorem eq_of_tryV4Burst (hwl : regs.cycleWl < 256)
    (h : vitaVifTryFastV4Burst unit regs source isFill state = some after) :
    after = unpackLoop unit regs isFill (plainKernel regs source) state := by
  obtain ⟨hguard, hfits, rfl⟩ := guards_of_some h
  simp only [Bool.or_eq_false_iff, Bool.not_eq_false', bne_eq_false_iff_eq] at hguard
  obtain ⟨⟨⟨hcycle, hmask⟩, hformat⟩, hmode⟩ := hguard
  refine finishBurst_eq hcycle hfits hwl ?_
  rw [plainBurst_v4 hmask hformat, hmode, modeTurn_zero]
  obtain ⟨h, hload, hsize⟩ | ⟨h, hload, hsize⟩ | ⟨h, hload, hsize⟩ := 
    v4_cases source hformat
  · rw [if_pos h, hload, hsize, vitaVifCopyQwordBurst_eq]
    rfl
  · rw [if_neg (by omega), if_pos h, hload, hsize, vitaVifStoreV4_16PairBurstNeon_eq]
  · rw [if_neg (by omega), if_neg (by omega), hload, hsize, vitaVifStoreV4_8QuadBurstNeon_eq]

theorem eq_of_tryV4ModeBurst (hwl : regs.cycleWl < 256)
    (h : vitaVifTryFastV4ModeBurst unit regs source isFill state = some after) :
    after = unpackLoop unit regs isFill (plainKernel regs source) state := by
  obtain ⟨hguard, hfits, rfl⟩ := guards_of_some h
  simp only [Bool.or_eq_false_iff, Bool.not_eq_false', beq_eq_false_iff_ne] at hguard
  obtain ⟨⟨⟨hcycle, hmask⟩, hformat⟩, hmode⟩ := hguard
  have hmode' : regs.mode % 4 = 1 ∨ regs.mode % 4 = 2 ∨ regs.mode % 4 = 3 := by omega
  refine finishBurst_eq hcycle hfits hwl ?_
  rw [plainBurst_v4 hmask hformat]
  obtain ⟨h, hload, hsize⟩ | ⟨h, hload, hsize⟩ | ⟨h, hload, hsize⟩ := 
    v4_cases source hformat
  · rw [if_pos h, hload, hsize, v4_32ModeLoop_eq regs source hmode']
  · rw [if_neg (by omega), if_pos h, hload, hsize, vitaVifStoreV4_16ModeBurstNeon_eq regs source hmode']
  · rw [if_neg (by omega), if_neg (by omega), hload, hsize,
      vitaVifStoreV4_8ModeBurstNeon_eq regs source hmode']

end Paths
end VitaSX2.Vif
