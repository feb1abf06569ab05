/-
All paths of an UNPACK end like the plain loop of its format.

The cycle burst walks beside the plain loop with a cycle of its own.  It reads
WL zero as a cycle of 256 vectors, while the plain loops compare with the
register itself and never close that cycle; this is the one difference, and it
shows behind the last of 256 vectors only.
-/
import VitaSX2.Vif.BurstFacts

namespace VitaSX2.Vif

/-! ### The set-up of an UNPACK -/

/-- What `vifUnpackSetup` leaves besides the registers that it reads. -/
structure UnpackSetup where
  regs : UnpackRegs
  tagAddr : BitVec 32
  tagSize : ℕ
  num : BitVec 32

/-- `vifUnpackSetup`, for the VIF code, TOPS and the size of the packet. -/
def vifUnpackSetup (unit : VifUnit) (code tops : BitVec 32) (packetSize : ℕ) (regs : UnpackRegs) :
    UnpackSetup :=
  let vifNum := if code.toNat / 2 ^ 16 % 2 ^ 8 = 0 then 256 else code.toNat / 2 ^ 16 % 2 ^ 8
  let gsize := nVifT (regs.cmd % 16)
  let wl := if regs.cycleWl ≠ 0 then regs.cycleWl else 256
  let addr := if unit = .vif1 ∧ code.getLsbD 15 then code + tops else code
  { regs :=
      { regs with
        usn := code.getLsbD 14
        startAligned := 4 - (packetSize + 3) % 4 }
    tagAddr := (addr <<< 4) &&& vuMemMask unit
    tagSize :=
      if wl ≤ regs.cycleCl then (vifNum * gsize + 3) / 4
      else ((regs.cycleCl * (vifNum / wl) + min (vifNum % wl) regs.cycleCl) * gsize + 3) / 4
    num := BitVec.ofNat 32 vifNum }

/-- The registers and the state that the set-up of an UNPACK leaves. -/
structure UnpackReady (regs : UnpackRegs) (state : UnpackState) : Prop where
  cycleCl : regs.cycleCl < 256
  cycleWl : regs.cycleWl < 256
  mode : regs.mode < 4
  data : nVifT regs.format ≠ 0
  cl : state.cl = 0
  num : state.num ≠ 0
  num_le : state.num.toNat ≤ 256

/-- The set-up leaves a state that an UNPACK can run in. -/
theorem vifUnpackSetup_ready (unit : VifUnit) (code tops : BitVec 32) (packetSize : ℕ)
    {regs : UnpackRegs} (hcl : regs.cycleCl < 256) (hwl : regs.cycleWl < 256)
    (hmode : regs.mode < 4) (hdata : nVifT regs.format ≠ 0) (vector : VectorState) :
    UnpackReady (vifUnpackSetup unit code tops packetSize regs).regs
      { vector := vector
        tagAddr := (vifUnpackSetup unit code tops packetSize regs).tagAddr
        cl := 0
        num := (vifUnpackSetup unit code tops packetSize regs).num } := by
  have hnum : 0 < (vifUnpackSetup unit code tops packetSize regs).num.toNat ∧
      (vifUnpackSetup unit code tops packetSize regs).num.toNat ≤ 256 := by
    simp only [vifUnpackSetup, BitVec.toNat_ofNat]
    split <;> omega
  exact {
    cycleCl := hcl
    cycleWl := hwl
    mode := hmode
    data := hdata
    cl := rfl
    num := fun hzero => by
      have hnum' : (vifUnpackSetup unit code tops packetSize regs).num.toNat = 0 :=
        congrArg BitVec.toNat hzero
      omega
    num_le := hnum.2 }

/-! ### The cycle burst -/

section CycleBurst

variable {unit : VifUnit} {regs : UnpackRegs} {source : ℕ → Byte} {state after : UnpackState}

lemma isFill_eq : regs.isFill = decide (regs.cycleCl < cycleBurstWl regs) := rfl

/-- A skipping write has a WL of its own. -/
lemma cycleBurstWl_of_skip (hcl : regs.cycleCl < 256) (h : regs.isFill = false) :
    cycleBurstWl regs = regs.cycleWl ∧ regs.cycleWl ≠ 0 ∧ regs.cycleWl ≤ regs.cycleCl := by
  rw [isFill_eq, decide_eq_false_iff_not, cycleBurstWl] at h
  rw [cycleBurstWl]
  split at h
  next hwl => exact ⟨if_pos hwl, hwl, by omega⟩
  next => omega

/-- The plain loop beside the cycle burst, in front of the vector `i`.  The two
cycles part only behind the last vector of a cycle of 256. -/
structure AlongCycle (regs : UnpackRegs) (state : UnpackState) (i : ℕ) (loop : UnpackLoop)
    (burst : CycleLoop) : Prop where
  vector : loop.state.vector = burst.vector
  generated : loop.generatedIteration = burst.generatedIteration
  data : loop.data = burst.data
  tagAddr : loop.state.tagAddr = state.tagAddr + BitVec.ofNat 32 burst.destOffset
  num : loop.state.num = state.num - BitVec.ofNat 32 i
  num' : burst.num = state.num - BitVec.ofNat 32 i
  cycle_lt : burst.cycle < cycleBurstWl regs
  cl : ¬(regs.cycleWl = 0 ∧ i = 256) → loop.state.cl = burst.cycle
  last : regs.cycleWl = 0 ∧ i = 256 → loop.state.cl = 256 ∧ burst.cycle = 0
  long : regs.cycleWl = 0 → i < 256 → burst.cycle = i
  fill : regs.isFill = true → burst.destOffset = i * 16
  skip : regs.isFill = false → burst.cycle = i % regs.cycleWl ∧
    burst.destOffset = i * 16 + i / regs.cycleWl * ((regs.cycleCl - regs.cycleWl) * 16)

/-- The destination of a vector lies inside the memory. -/
lemma AlongCycle.dest_lt {i : ℕ} {loop : UnpackLoop} {burst : CycleLoop}
    (hcl : regs.cycleCl < 256) (h : AlongCycle regs state i loop burst)
    (hi : i < state.num.toNat)
    (hfits : vuMemOffset unit state + maxWriteEnd regs regs.isFill state ≤ vuMemSize unit) :
    vuMemOffset unit state + burst.destOffset < vuMemSize unit ∧ burst.destOffset % 16 = 0 := by
  unfold maxWriteEnd at hfits
  cases hfill : regs.isFill with
  | true =>
    rw [hfill, if_pos rfl] at hfits
    rw [h.fill hfill]
    omega
  | false =>
    obtain ⟨hwl, -, -⟩ := cycleBurstWl_of_skip hcl hfill
    rw [hfill, if_neg Bool.false_ne_true, hwl] at hfits
    rw [(h.skip hfill).2]
    have hdiv : i / regs.cycleWl ≤ (state.num.toNat - 1) / regs.cycleWl :=
      Nat.div_le_div_right (by omega)
    have hmul := Nat.mul_le_mul_right ((regs.cycleCl - regs.cycleWl) * 16) hdiv
    constructor
    · omega
    · rw [← Nat.mul_assoc, ← Nat.add_mul]
      exact Nat.mul_mod_left _ _

lemma cycleBurstWl_le (hwl : regs.cycleWl < 256) : cycleBurstWl regs ≤ 256 := by
  unfold cycleBurstWl
  split <;> omega

/-- What both loops do at a vector. -/
lemma AlongCycle.kernel {kernel : VectorKernel} {i : ℕ} {loop : UnpackLoop} {burst : CycleLoop}
    (hready : UnpackReady regs state) (h : AlongCycle regs state i loop burst)
    (hi : i < state.num.toNat)
    (hfits : vuMemOffset unit state + maxWriteEnd regs regs.isFill state ≤ vuMemSize unit) :
    kernel loop.state.cl loop.data (vectorIteration regs.format loop.generatedIteration)
        (vitaVifVuMemPtr unit loop.state.tagAddr) loop.state.vector =
      kernel (burst.cycle % 2 ^ 8) burst.data
        (vectorIteration regs.format burst.generatedIteration)
        (vuMemOffset unit state + burst.destOffset) burst.vector := by
  obtain ⟨hlt, haligned⟩ := h.dest_lt hready.cycleCl hi hfits
  have hle := hready.num_le
  have hcl : loop.state.cl = burst.cycle := h.cl fun hlast => by omega
  have hcycle := h.cycle_lt
  have hwl := cycleBurstWl_le hready.cycleWl
  rw [h.vector, h.generated, h.data, hcl, Nat.mod_eq_of_lt (by omega : burst.cycle < 2 ^ 8),
    h.tagAddr]
  congr 1
  exact vitaVifVuMemPtr_add haligned hlt

/-- The moves of a filling write. -/
lemma AlongCycle.advance_fill {i : ℕ} {loop : UnpackLoop} {burst : CycleLoop}
    (hready : UnpackReady regs state) (h : AlongCycle regs state i loop burst)
    (hi : i < state.num.toNat) (hfill : regs.isFill = true) (vsize : ℕ) :
    AlongCycle regs state (i + 1) (loop.advance regs true vsize)
      (burst.advance regs true vsize) := by
  have hle := hready.num_le
  have hcl : loop.state.cl = burst.cycle := h.cl fun hlast => by omega
  have hcycle := h.cycle_lt
  have hfill' : regs.cycleCl < cycleBurstWl regs := by
    rw [isFill_eq] at hfill
    exact of_decide_eq_true hfill
  have haddr : loop.state.tagAddr + 16 =
      state.tagAddr + BitVec.ofNat 32 (burst.destOffset + 16) := by
    rw [h.tagAddr, BitVec.ofNat_add, BitVec.add_assoc]
    rfl
  have hnum : ∀ num : BitVec 32, num = state.num - BitVec.ofNat 32 i →
      num - 1 = state.num - BitVec.ofNat 32 (i + 1) := by
    rintro num rfl
    rw [BitVec.ofNat_add, BitVec.sub_sub]
    rfl
  have hdest : burst.destOffset + 16 = (i + 1) * 16 := by rw [h.fill hfill, Nat.add_mul]
  have hnofill : ∀ {P : Prop}, regs.isFill = false → P := fun hno => by simp [hfill] at hno
  have hlong : regs.cycleWl = 0 → cycleBurstWl regs = 256 ∧ burst.cycle = i := fun hzero =>
    ⟨if_neg (not_not.mpr hzero), h.long hzero (by omega)⟩
  unfold UnpackLoop.advance CycleLoop.advance
  simp only [if_true, hcl]
  split
  next hmore =>
    exact {
      vector := h.vector
      generated := h.generated
      data := congrArg (· + vsize) h.data
      tagAddr := haddr
      num := hnum _ h.num
      num' := hnum _ h.num'
      cycle_lt := by dsimp only; omega
      cl := fun _ => rfl
      last := fun hlast => by
        have := hready.cycleCl
        have := (hlong hlast.1).2
        omega
      long := fun hzero _ => by dsimp only; rw [(hlong hzero).2]
      fill := fun _ => hdest
      skip := hnofill }
  next hdone =>
    -- the plain loop compares with WL itself, the burst with 256 for zero
    by_cases hzero : regs.cycleWl = 0
    · obtain ⟨hwl, hi'⟩ := hlong hzero
      rw [if_neg (by omega), hwl]
      by_cases hlast : burst.cycle + 1 = 256
      · rw [if_pos hlast]
        exact {
          vector := h.vector
          generated := h.generated
          data := h.data
          tagAddr := haddr
          num := hnum _ h.num
          num' := hnum _ h.num'
          cycle_lt := by dsimp only; omega
          cl := fun hno => absurd ⟨hzero, by omega⟩ hno
          last := fun _ => ⟨hlast, rfl⟩
          long := fun _ hlt => by omega
          fill := fun _ => hdest
          skip := hnofill }
      · rw [if_neg hlast]
        exact {
          vector := h.vector
          generated := h.generated
          data := h.data
          tagAddr := haddr
          num := hnum _ h.num
          num' := hnum _ h.num'
          cycle_lt := by dsimp only; omega
          cl := fun _ => rfl
          last := fun hend => absurd (by omega) hlast
          long := fun _ _ => by dsimp only; omega
          fill := fun _ => hdest
          skip := hnofill }
    · have hwl : cycleBurstWl regs = regs.cycleWl := if_pos hzero
      rw [hwl]
      split
      next hlast =>
        exact {
          vector := h.vector
          generated := h.generated
          data := h.data
          tagAddr := haddr
          num := hnum _ h.num
          num' := hnum _ h.num'
          cycle_lt := by dsimp only; omega
          cl := fun _ => rfl
          last := fun hno => absurd hno.1 hzero
          long := fun hno => absurd hno hzero
          fill := fun _ => hdest
          skip := hnofill }
      next hmore =>
        exact {
          vector := h.vector
          generated := h.generated
          data := h.data
          tagAddr := haddr
          num := hnum _ h.num
          num' := hnum _ h.num'
          cycle_lt := by dsimp only; omega
          cl := fun _ => rfl
          last := fun hno => absurd hno.1 hzero
          long := fun hno => absurd hno hzero
          fill := fun _ => hdest
          skip := hnofill }

/-- The moves of a skipping write. -/
lemma AlongCycle.advance_skip {i : ℕ} {loop : UnpackLoop} {burst : CycleLoop}
    (hready : UnpackReady regs state) (h : AlongCycle regs state i loop burst)
    (hskip : regs.isFill = false) (vsize : ℕ) :
    AlongCycle regs state (i + 1) (loop.advance regs false vsize)
      (burst.advance regs false vsize) := by
  obtain ⟨hwl, hzero, hle⟩ := cycleBurstWl_of_skip hready.cycleCl hskip
  obtain ⟨hcycle, hdest⟩ := h.skip hskip
  have hcl : loop.state.cl = burst.cycle := h.cl fun hlast => hzero hlast.1
  have hlt := h.cycle_lt
  have haddr : loop.state.tagAddr + 16 =
      state.tagAddr + BitVec.ofNat 32 (burst.destOffset + 16) := by
    rw [h.tagAddr, BitVec.ofNat_add, BitVec.add_assoc]
    rfl
  have hskipSize : regs.skipSize = BitVec.ofNat 32 ((regs.cycleCl - regs.cycleWl) * 16) := by
    have := hready.cycleCl
    have := hready.cycleWl
    apply BitVec.eq_of_toNat_eq
    have h16 : (16 : BitVec 32).toNat = 16 := rfl
    simp only [UnpackRegs.skipSize, BitVec.toNat_mul, BitVec.toNat_sub, BitVec.toNat_ofNat, h16]
    omega
  have hnum : ∀ num : BitVec 32, num = state.num - BitVec.ofNat 32 i →
      num - 1 = state.num - BitVec.ofNat 32 (i + 1) := by
    rintro num rfl
    rw [BitVec.ofNat_add, BitVec.sub_sub]
    rfl
  have hnofill : ∀ {P : Prop}, regs.isFill = true → P := fun hno => by simp [hskip] at hno
  unfold UnpackLoop.advance CycleLoop.advance
  simp only [Bool.false_eq_true, if_false, hcl, hwl, cycleBurstSkip]
  split
  next hlast =>
    have hlast : i % regs.cycleWl + 1 = regs.cycleWl := by omega
    have hdvd : regs.cycleWl ∣ i + 1 := Nat.dvd_of_mod_eq_zero (succ_mod_of_eq hlast)
    exact {
      vector := h.vector
      generated := h.generated
      data := congrArg (· + vsize) h.data
      tagAddr := by
        dsimp only
        rw [haddr, hskipSize, BitVec.ofNat_add (_ + 16), BitVec.add_assoc]
      num := hnum _ h.num
      num' := hnum _ h.num'
      cycle_lt := by dsimp only; omega
      cl := fun _ => rfl
      last := fun hno => absurd hno.1 hzero
      long := fun hno => absurd hno hzero
      fill := hnofill
      skip := fun _ => by
        refine ⟨(succ_mod_of_eq hlast).symm, ?_⟩
        dsimp only
        rw [hdest, Nat.succ_div_of_dvd hdvd, Nat.add_mul (i / regs.cycleWl), Nat.add_mul i]
        omega }
  next hmore =>
    have hmore : i % regs.cycleWl + 1 < regs.cycleWl := by omega
    have hdvd : ¬regs.cycleWl ∣ i + 1 := fun hdvd => by
      have := Nat.mod_eq_zero_of_dvd hdvd
      rw [succ_mod_of_lt hmore] at this
      omega
    exact {
      vector := h.vector
      generated := h.generated
      data := congrArg (· + vsize) h.data
      tagAddr := haddr
      num := hnum _ h.num
      num' := hnum _ h.num'
      cycle_lt := by dsimp only; omega
      cl := fun _ => rfl
      last := fun hno => absurd hno.1 hzero
      long := fun hno => absurd hno hzero
      fill := hnofill
      skip := fun _ => by
        refine ⟨by dsimp only; rw [succ_mod_of_lt hmore, hcycle], ?_⟩
        dsimp only
        rw [hdest, Nat.succ_div_of_not_dvd hdvd]
        omega }

/-- One vector of both loops. -/
lemma AlongCycle.step {kernel : VectorKernel} {i : ℕ} {loop : UnpackLoop} {burst : CycleLoop}
    (hready : UnpackReady regs state)
    (hfits : vuMemOffset unit state + maxWriteEnd regs regs.isFill state ≤ vuMemSize unit)
    (hi : i < state.num.toNat) (h : AlongCycle regs state i loop burst) :
    AlongCycle regs state (i + 1) (unpackTurn unit regs regs.isFill kernel loop)
      (cycleTurn regs regs.isFill kernel (vuMemOffset unit state) burst) := by
  let vector := kernel loop.state.cl loop.data
    (vectorIteration regs.format loop.generatedIteration)
    (vitaVifVuMemPtr unit loop.state.tagAddr) loop.state.vector
  have hstored : AlongCycle regs state i { loop with state := { loop.state with vector := vector } }
      { burst with
        vector := kernel (burst.cycle % 2 ^ 8) burst.data
          (vectorIteration regs.format burst.generatedIteration)
          (vuMemOffset unit state + burst.destOffset) burst.vector } :=
    { h with vector := h.kernel hready hi hfits }
  have hgenerated : nextIteration regs.format loop.generatedIteration =
      nextIteration regs.format burst.generatedIteration := by rw [h.generated]
  cases hfill : regs.isFill with
  | true => exact { hstored.advance_fill hready hi hfill _ with generated := hgenerated }
  | false => exact { hstored.advance_skip hready hfill _ with generated := hgenerated }

/-- The cycle burst ends like the plain loop, apart from the cycle behind 256
vectors of a cycle of 256. -/
theorem tryCycleBurst_spec (hready : UnpackReady regs state)
    (h : vitaVifTryFastCycleBurst unit regs source regs.isFill state = some after) :
    after.vector = (unpackLoop unit regs regs.isFill (plainKernel regs source) state).vector ∧
      after.tagAddr = (unpackLoop unit regs regs.isFill (plainKernel regs source) state).tagAddr ∧
      after.num = (unpackLoop unit regs regs.isFill (plainKernel regs source) state).num ∧
      (after.cl = (unpackLoop unit regs regs.isFill (plainKernel regs source) state).cl ↔
        ¬(regs.cycleWl = 0 ∧ state.num.toNat = 256)) := by
  unfold vitaVifTryFastCycleBurst at h
  dsimp only at h
  rw [fastKernel_eq source hready.data] at h
  split_ifs at h with hguard hcycle hfits
  obtain rfl := Option.some.inj h
  have hstart : AlongCycle regs state 0 { state := state }
      { vector := state.vector, num := state.num } :=
    { vector := rfl
      generated := rfl
      data := rfl
      tagAddr := by simp
      num := by simp
      num' := by simp
      cycle_lt := by
        unfold cycleBurstWl
        dsimp only
        split <;> omega
      cl := fun _ => hready.cl
      last := fun hlast => absurd hlast.2 (by decide)
      long := fun _ _ => rfl
      fill := fun _ => rfl
      skip := fun _ => by simp }
  have hend : AlongCycle regs state state.num.toNat
      ((unpackTurn unit regs regs.isFill (plainKernel regs source))^[state.num.toNat]
        { state := state })
      ((cycleTurn regs regs.isFill (plainKernel regs source)
        (vuMemOffset unit state))^[state.num.toNat]
        { vector := state.vector, num := state.num }) :=
    CountedLoop.simulation (AlongCycle regs state)
      (fun i hi _ _ h => h.step hready (Nat.not_lt.mp hfits) hi) hstart
  have hcycle := hend.cycle_lt
  have hwl := cycleBurstWl_le hready.cycleWl
  rw [unpackLoop, turns_of_ne_zero hready.num]
  refine ⟨hend.vector.symm, hend.tagAddr.symm, hend.num'.trans hend.num.symm, ?_⟩
  dsimp only
  rw [Nat.mod_eq_of_lt (by omega)]
  constructor
  · intro hcl hlast
    obtain ⟨hplain, hburst⟩ := hend.last hlast
    omega
  · exact fun hlast => (hend.cl hlast).symm

end CycleBurst

/-! ### All paths -/

section Paths

variable {unit : VifUnit} {regs : UnpackRegs} {source : ℕ → Byte} {state : UnpackState}

/-- The cycle burst closes a cycle of 256 vectors, which the plain loop leaves open. -/
def ClosesLongCycle (unit : VifUnit) (regs : UnpackRegs) (state : UnpackState) : Prop :=
  regs.cycleWl = 0 ∧ state.num.toNat = 256 ∧ vuMemOffset unit state + 4096 ≤ vuMemSize unit

/-- Every path but the cycle burst ends like the plain loop. -/
lemma vitaVifUnpack_cases (unit : VifUnit) (source : ℕ → Byte) (hready : UnpackReady regs state) :
    vitaVifUnpack unit regs source regs.isFill state =
        unpackLoop unit regs regs.isFill (plainKernel regs source) state ∨
      vitaVifTryFastCycleBurst unit regs source regs.isFill state =
        some (vitaVifUnpack unit regs source regs.isFill state) := by
  unfold vitaVifUnpack
  cases h : vitaVifTryFastV4Burst unit regs source regs.isFill state with
  | some after => exact Or.inl (eq_of_tryV4Burst hready.cycleWl h)
  | none =>
  cases h : vitaVifTryFastV4_5Burst unit regs source regs.isFill state with
  | some after => exact Or.inl (eq_of_tryV4_5Burst hready.cycleWl h)
  | none =>
  cases h : vitaVifTryFastSAndV2Burst unit regs source regs.isFill state with
  | some after => exact Or.inl (eq_of_trySAndV2Burst hready.cycleWl h)
  | none =>
  cases h : vitaVifTryFastV3Burst unit regs source regs.isFill state with
  | some after => exact Or.inl (eq_of_tryV3Burst hready.cycleWl h)
  | none =>
  cases h : vitaVifTryFastV4ModeBurst unit regs source regs.isFill state with
  | some after => exact Or.inl (eq_of_tryV4ModeBurst hready.cycleWl h)
  | none =>
  cases h : vitaVifTryFastModeMaskBurst unit regs source regs.isFill state with
  | some after => exact Or.inl (eq_of_tryModeMaskBurst hready.cycleWl h)
  | none =>
  cases h : vitaVifTryFastCycleBurst unit regs source regs.isFill state with
  | some after => exact Or.inr rfl
  | none =>
  cases h : vitaVifTryFastPlainUnmasked unit regs source regs.isFill state with
  | some after => exact Or.inl (eq_of_tryFastPlainUnmasked h)
  | none =>
    -- what is left is the plain loop, which takes every format with data
    refine Or.inl ?_
    change (plainUnpack unit regs source regs.isFill state).getD _ = _
    rw [plainUnpack_eq hready.data]
    rfl

/-- WL zero is a filling write. -/
lemma isFill_of_cycleWl_eq_zero (hready : UnpackReady regs state) (hwl : regs.cycleWl = 0) :
    regs.isFill = true := by
  rw [isFill_eq, cycleBurstWl, if_neg (not_not.mpr hwl)]
  exact decide_eq_true hready.cycleCl

/-- The cycle burst is taken inside the memory only. -/
lemma fits_of_tryCycleBurst {isFill : Bool} {after : UnpackState}
    (h : vitaVifTryFastCycleBurst unit regs source isFill state = some after) :
    vuMemOffset unit state + maxWriteEnd regs isFill state ≤ vuMemSize unit := by
  unfold vitaVifTryFastCycleBurst at h
  dsimp only at h
  split at h
  next => cases h
  next =>
    split at h
    next => cases h
    next =>
      split at h
      next => cases h
      next hfits => exact Nat.not_lt.mp hfits

/-- A cycle of zero is taken by no contiguous path. -/
lemma vitaVifUnpack_of_closesLongCycle (source : ℕ → Byte) (hready : UnpackReady regs state)
    (hlong : ClosesLongCycle unit regs state) :
    vitaVifTryFastCycleBurst unit regs source regs.isFill state =
      some (vitaVifUnpack unit regs source regs.isFill state) := by
  obtain ⟨hwl, hnum, hfits⟩ := hlong
  have hcontiguous : contiguousCycle regs regs.isFill state = false := by
    simp [contiguousCycle, hwl]
  have htaken : ∃ after, vitaVifTryFastCycleBurst unit regs source regs.isFill state =
      some after := by
    have hfast : ¬(state.cl ≠ 0 ∨ state.num = 0 ∨ nVifT regs.format = 0 ∨
        ((!vitaVifIsFastVectorFormat regs.format) = true ∧ regs.format ≠ 0x0f)) := by
      rintro (h | h | h | ⟨h, hformat⟩)
      · exact h hready.cl
      · exact hready.num h
      · exact hready.data h
      · rw [isFastVectorFormat_iff.mpr ((format_cases hready.data).resolve_left hformat)] at h
        cases h
    have hfill := isFill_of_cycleWl_eq_zero hready hwl
    have hend : ¬vuMemOffset unit state + maxWriteEnd regs regs.isFill state > vuMemSize unit := by
      rw [maxWriteEnd, hfill, if_pos rfl, hnum]
      omega
    unfold vitaVifTryFastCycleBurst
    dsimp only
    rw [if_neg hfast, if_neg (by simp [hfill]), if_neg hend]
    exact ⟨_, rfl⟩
  obtain ⟨after, htaken⟩ := htaken
  have hresult : vitaVifUnpack unit regs source regs.isFill state = after := by
    simp [vitaVifUnpack, vitaVifTryFastV4Burst, vitaVifTryFastV4_5Burst,
      vitaVifTryFastSAndV2Burst, vitaVifTryFastV3Burst, vitaVifTryFastV4ModeBurst,
      vitaVifTryFastModeMaskBurst, hcontiguous, htaken]
  rw [htaken, hresult]

/-- The path that is taken ends like the plain loop of the format, and like the
interpreter for the formats that lose no lane. -/
def UnpackAgrees (unit : VifUnit) (regs : UnpackRegs) (source : ℕ → Byte) (state : UnpackState) :
    Prop :=
  plainUnpack unit regs source regs.isFill state =
      some (vitaVifUnpack unit regs source regs.isFill state) ∧
    (vitaVifIsV3Format regs.format = false →
      nVifUnpack unit regs source regs.isFill state =
        vitaVifUnpack unit regs source regs.isFill state)

/-- The VU memory, the rows, the tag address and NUM always agree. -/
theorem vitaVifUnpack_memory (hready : UnpackReady regs state) :
    (vitaVifUnpack unit regs source regs.isFill state).vector =
      (unpackLoop unit regs regs.isFill (plainKernel regs source) state).vector := by
  obtain h | h := vitaVifUnpack_cases unit source hready
  · rw [h]
  · exact (tryCycleBurst_spec hready h).1

/-- What agreeing comes down to. -/
lemma unpackAgrees_eq_plain (hready : UnpackReady regs state) :
    UnpackAgrees unit regs source state ↔
      unpackLoop unit regs regs.isFill (plainKernel regs source) state =
        vitaVifUnpack unit regs source regs.isFill state := by
  rw [UnpackAgrees, plainUnpack_eq hready.data, Option.some_inj]
  constructor
  · exact fun h => h.1
  · exact fun h => ⟨h, fun hv3 => (nVifUnpack_eq hready.data hv3 hready.mode).trans h⟩

lemma not_unpackAgrees_of_closesLongCycle (hready : UnpackReady regs state)
    (hlong : ClosesLongCycle unit regs state) : ¬UnpackAgrees unit regs source state := by
  intro h
  have hspec := tryCycleBurst_spec hready (vitaVifUnpack_of_closesLongCycle source hready hlong)
  exact hspec.2.2.2.mp (congrArg (·.cl) ((unpackAgrees_eq_plain hready).mp h)).symm
    ⟨hlong.1, hlong.2.1⟩

/-- The paths of an UNPACK agree unless the cycle burst closes a cycle of 256. -/
theorem unpackAgrees_iff (unit : VifUnit) (regs : UnpackRegs) (source : ℕ → Byte)
    (state : UnpackState) (hready : UnpackReady regs state) :
    UnpackAgrees unit regs source state ↔ ¬ClosesLongCycle unit regs state := by
  constructor
  · exact fun h hlong => not_unpackAgrees_of_closesLongCycle hready hlong h
  · intro hlong
    rw [unpackAgrees_eq_plain hready]
    obtain h | h := vitaVifUnpack_cases unit source hready
    · exact h.symm
    · obtain ⟨hvector, haddr, hnum, hcl⟩ := tryCycleBurst_spec hready h
      refine (UnpackState.ext hvector haddr (hcl.mpr ?_) hnum).symm
      rintro ⟨hwl, hcount⟩
      have hfits := fits_of_tryCycleBurst h
      rw [maxWriteEnd, isFill_of_cycleWl_eq_zero hready hwl, if_pos rfl, hcount] at hfits
      exact hlong ⟨hwl, hcount, hfits⟩

/-- Three vectors of V4-32 under WL zero. -/
def shortFill : UnpackRegs × UnpackState :=
  ({ cmd := 0x6c, cycleCl := 2 }, ⟨⟨fun _ => 0, fun _ => 0⟩, 0, 0, 3⟩)

theorem unpackAgrees_iff_shortFill :
    UnpackAgrees .vif1 shortFill.1 (fun _ => 1) shortFill.2 ↔
      ¬ClosesLongCycle .vif1 shortFill.1 shortFill.2 :=
  unpackAgrees_iff .vif1 shortFill.1 (fun _ => 1) shortFill.2 (by constructor <;> decide)

/-- S-32 with CYCLE zero and NUM 256 at the start of the memory of VU1. -/
def longFill : UnpackRegs × UnpackState :=
  ({ cmd := 0x60 }, ⟨⟨fun _ => 0, fun _ => 0⟩, 0, 0, 256⟩)

theorem not_unpackAgrees_longFill :
    UnpackReady longFill.1 longFill.2 ∧
      ¬UnpackAgrees .vif1 longFill.1 (fun _ => 0) longFill.2 := by
  have hready : UnpackReady longFill.1 longFill.2 := by constructor <;> decide
  exact ⟨hready, not_unpackAgrees_of_closesLongCycle hready ⟨rfl, rfl, by decide⟩⟩

end Paths

end VitaSX2.Vif
