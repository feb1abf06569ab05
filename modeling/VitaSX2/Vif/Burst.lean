/-
The burst paths of an UNPACK and their dispatch (`VitaVifInterpreter.cpp`).

A burst stores vectors whose destinations do not wrap at the end of the VU
memory.  The guard of each path is evaluated before anything is written; a path
that does not take the UNPACK is `none`.
-/
import VitaSX2.Vif.UnpackLoop

namespace VitaSX2.Vif

/-! ### Copies and widening stores -/

/-- The destination and source pointers of a store loop. -/
structure StoreCursor where
  vector : VectorState
  dest : ℕ
  src : ℕ

def StoreCursor.move (cursor : StoreCursor) (vector : VectorState) (dest src : ℕ) : StoreCursor :=
  { vector := vector, dest := cursor.dest + dest, src := cursor.src + src }

section Stores

variable (source : ℕ → Byte)

/-- One qword. -/
def copyQword (cursor : StoreCursor) : StoreCursor :=
  cursor.move (vitaVifStoreVectorNeon cursor.dest (vld1qU32 source cursor.src) cursor.vector) 16 16

/-- `VitaVifCopy64Bytes`: the four loads come before the four stores. -/
def vitaVifCopy64Bytes (dest src : ℕ) (state : VectorState) : VectorState :=
  let qword0 := vld1qU32 source src
  let qword1 := vld1qU32 source (src + 16)
  let qword2 := vld1qU32 source (src + 32)
  let qword3 := vld1qU32 source (src + 48)
  vitaVifStoreVectorNeon (dest + 48) qword3 (vitaVifStoreVectorNeon (dest + 32) qword2
    (vitaVifStoreVectorNeon (dest + 16) qword1 (vitaVifStoreVectorNeon dest qword0 state)))

def vitaVifCopy128Bytes (dest src : ℕ) (state : VectorState) : VectorState :=
  vitaVifCopy64Bytes source (dest + 64) (src + 64) (vitaVifCopy64Bytes source dest src state)

def vitaVifCopy256Bytes (dest src : ℕ) (state : VectorState) : VectorState :=
  vitaVifCopy128Bytes source (dest + 128) (src + 128) (vitaVifCopy128Bytes source dest src state)

def vitaVifCopy1024Bytes (dest src : ℕ) (state : VectorState) : VectorState :=
  vitaVifCopy256Bytes source (dest + 768) (src + 768)
    (vitaVifCopy256Bytes source (dest + 512) (src + 512)
      (vitaVifCopy256Bytes source (dest + 256) (src + 256)
        (vitaVifCopy256Bytes source dest src state)))

/-- A group of a copy burst. -/
def copyGroup (copy : ℕ → ℕ → VectorState → VectorState) (bytes : ℕ) (cursor : StoreCursor) :
    StoreCursor :=
  cursor.move (copy cursor.dest cursor.src cursor.vector) bytes bytes

def vitaVifCopyQwordBurst (dest count : ℕ) (state : VectorState) : VectorState :=
  let groups1024 := count / 64
  let remainingAfter1024 := count % 64
  let groups256 := remainingAfter1024 / 16
  let remainingAfter256 := remainingAfter1024 % 16
  let groups128 := remainingAfter256 / 8
  let remainingAfter128 := remainingAfter256 % 8
  let groups64 := remainingAfter128 / 4
  let tailQwords := remainingAfter128 % 4
  let cursor := (copyGroup (vitaVifCopy1024Bytes source) 1024)^[groups1024] ⟨state, dest, 0⟩
  let cursor := (copyGroup (vitaVifCopy256Bytes source) 256)^[groups256] cursor
  let cursor := (copyGroup (vitaVifCopy128Bytes source) 128)^[groups128] cursor
  let cursor := (copyGroup (vitaVifCopy64Bytes source) 64)^[groups64] cursor
  ((copyQword source)^[tailQwords] cursor).vector

/-- The two vectors of a V4-16 pair. -/
def widenPair (src : ℕ) (usn : Bool) : Lanes 4 32 × Lanes 4 32 :=
  let packed := vld1U16 8 source src
  if usn then (vmovlU 32 (vgetLow 4 packed), vmovlU 32 (vgetHigh 4 packed))
  else (vmovlS 32 (vgetLow 4 packed), vmovlS 32 (vgetHigh 4 packed))

/-- The four vectors of a V4-8 quad. -/
def widenQuad (src : ℕ) (usn : Bool) : Fin 4 → Lanes 4 32 :=
  let packed := vld1qU8 source src
  if usn then
    let low16 := vmovlU 16 (vgetLow 8 packed)
    let high16 := vmovlU 16 (vgetHigh 8 packed)
    ![vmovlU 32 (vgetLow 4 low16), vmovlU 32 (vgetHigh 4 low16), vmovlU 32 (vgetLow 4 high16),
      vmovlU 32 (vgetHigh 4 high16)]
  else
    let low16 := vmovlS 16 (vgetLow 8 packed)
    let high16 := vmovlS 16 (vgetHigh 8 packed)
    ![vmovlS 32 (vgetLow 4 low16), vmovlS 32 (vgetHigh 4 low16), vmovlS 32 (vgetLow 4 high16),
      vmovlS 32 (vgetHigh 4 high16)]

def v4_16Pair (usn : Bool) (cursor : StoreCursor) : StoreCursor :=
  let packed := widenPair source cursor.src usn
  cursor.move (vitaVifStoreVectorNeon (cursor.dest + 16) packed.2
    (vitaVifStoreVectorNeon cursor.dest packed.1 cursor.vector)) 32 16

def vitaVifStoreV4_16PairBurstNeon (dest count : ℕ) (usn : Bool) (state : VectorState) :
    VectorState :=
  let pairs := count / 2
  let cursor := (v4_16Pair source usn)^[pairs] ⟨state, dest, 0⟩
  if count % 2 ≠ 0 then
    vitaVifStoreVectorNeon cursor.dest (vitaVifLoadV4_16VectorNeon source cursor.src usn)
      cursor.vector
  else cursor.vector

def v4_8Quad (usn : Bool) (cursor : StoreCursor) : StoreCursor :=
  let packed := widenQuad source cursor.src usn
  cursor.move (vitaVifStoreVectorNeon (cursor.dest + 48) (packed 3)
    (vitaVifStoreVectorNeon (cursor.dest + 32) (packed 2)
      (vitaVifStoreVectorNeon (cursor.dest + 16) (packed 1)
        (vitaVifStoreVectorNeon cursor.dest (packed 0) cursor.vector)))) 64 16

def v4_8Single (usn : Bool) (cursor : StoreCursor) : StoreCursor :=
  cursor.move (vitaVifStoreVectorNeon cursor.dest
    (vitaVifLoadV4_8VectorNeon source cursor.src usn) cursor.vector) 16 4

def vitaVifStoreV4_8QuadBurstNeon (dest count : ℕ) (usn : Bool) (state : VectorState) :
    VectorState :=
  let quads := count / 4
  let cursor := (v4_8Quad source usn)^[quads] ⟨state, dest, 0⟩
  ((v4_8Single source usn)^[count - quads * 4] cursor).vector

/-! ### MODE bursts -/

/-- A store loop that keeps the row in a register. -/
structure ModeCursor where
  memory : Memory
  row : Lanes 4 32
  dest : ℕ
  src : ℕ

/-- One vector: MODE 1 and 2 add the row that is passed, and the result may become the row. -/
def ModeCursor.store (cursor : ModeCursor) (vector : VectorState → VectorState) (dest src : ℕ)
    (row : Lanes 4 32) : ModeCursor :=
  { memory := (vector ⟨cursor.memory, cursor.row⟩).memory
    row := row
    dest := cursor.dest + dest
    src := cursor.src + src }

def v4_32ModeTurn (mode : ℕ) (cursor : ModeCursor) : ModeCursor :=
  let unpacked := vld1qU32 source cursor.src
  let result := if mode = 1 ∨ mode = 2 then vadd unpacked cursor.row else unpacked
  cursor.store (vitaVifStoreVectorNeon cursor.dest result) 16 16
    (if mode = 2 ∨ mode = 3 then result else cursor.row)

/-- The V4-32 loop of `VitaVifTryFastV4ModeBurst`. -/
def v4_32ModeLoop (dest count mode : ℕ) (state : VectorState) : VectorState :=
  let cursor := (v4_32ModeTurn source mode)^[count] ⟨state.memory, state.maskRow, dest, 0⟩
  { memory := cursor.memory
    maskRow := if mode = 2 ∨ mode = 3 then cursor.row else state.maskRow }

def modeTwoTurn (load : ℕ → Lanes 4 32) (vsize : ℕ) (cursor : ModeCursor) : ModeCursor :=
  let result := vadd (load cursor.src) cursor.row
  cursor.store (vitaVifStoreVectorNeon cursor.dest result) 16 vsize result

/-- MODE 2 of the widening bursts, vector by vector. -/
def modeTwoLoop (load : ℕ → Lanes 4 32) (dest count vsize : ℕ) (state : VectorState) :
    VectorState :=
  let cursor := (modeTwoTurn load vsize)^[count] ⟨state.memory, state.maskRow, dest, 0⟩
  { memory := cursor.memory, maskRow := cursor.row }

/-- A vector of the MODE 1 and MODE 3 groups. -/
def addRow (mode : ℕ) (row value : Lanes 4 32) : Lanes 4 32 :=
  if mode = 1 then vadd value row else value

/-- One vector behind the groups. -/
def modeSingle (load : ℕ → Lanes 4 32) (vsize mode : ℕ) (row : Lanes 4 32) (cursor : ModeCursor) :
    ModeCursor :=
  let value := load cursor.src
  cursor.store (vitaVifStoreVectorNeon cursor.dest (addRow mode row value)) 16 vsize
    (if mode = 1 then cursor.row else value)

def v4_16ModePair (usn : Bool) (mode : ℕ) (row : Lanes 4 32) (cursor : ModeCursor) : ModeCursor :=
  let packed := widenPair source cursor.src usn
  cursor.store (fun vector => vitaVifStoreVectorNeon (cursor.dest + 16) (addRow mode row packed.2)
    (vitaVifStoreVectorNeon cursor.dest (addRow mode row packed.1) vector)) 32 16
    (if mode = 1 then cursor.row else packed.2)

/-- `VitaVifStoreV4_16ModeBurstNeon`; the row of the cursor is `final_row`. -/
def vitaVifStoreV4_16ModeBurstNeon (dest count : ℕ) (usn : Bool) (mode : ℕ) (state : VectorState) :
    VectorState :=
  let row := state.maskRow
  let load := (vitaVifLoadV4_16VectorNeon source · usn)
  if mode ≠ 2 then
    let pairs := count / 2
    let cursor := (v4_16ModePair source usn mode row)^[pairs] ⟨state.memory, row, dest, 0⟩
    let cursor := if count % 2 ≠ 0 then modeSingle load 8 mode row cursor else cursor
    { memory := cursor.memory, maskRow := if mode = 3 then cursor.row else state.maskRow }
  else modeTwoLoop load dest count 8 state

def v4_8ModeQuad (usn : Bool) (mode : ℕ) (row : Lanes 4 32) (cursor : ModeCursor) : ModeCursor :=
  let packed := widenQuad source cursor.src usn
  cursor.store (fun vector =>
    vitaVifStoreVectorNeon (cursor.dest + 48) (addRow mode row (packed 3))
      (vitaVifStoreVectorNeon (cursor.dest + 32) (addRow mode row (packed 2))
        (vitaVifStoreVectorNeon (cursor.dest + 16) (addRow mode row (packed 1))
          (vitaVifStoreVectorNeon cursor.dest (addRow mode row (packed 0)) vector)))) 64 16
    (if mode = 1 then cursor.row else packed 3)

/-- `VitaVifStoreV4_8ModeBurstNeon`; the row of the cursor is `final_row`. -/
def vitaVifStoreV4_8ModeBurstNeon (dest count : ℕ) (usn : Bool) (mode : ℕ) (state : VectorState) :
    VectorState :=
  let row := state.maskRow
  let load := (vitaVifLoadV4_8VectorNeon source · usn)
  if mode ≠ 2 then
    let quads := count / 4
    let cursor := (v4_8ModeQuad source usn mode row)^[quads] ⟨state.memory, row, dest, 0⟩
    let cursor := (modeSingle load 4 mode row)^[count - quads * 4] cursor
    { memory := cursor.memory, maskRow := if mode = 3 then cursor.row else state.maskRow }
  else modeTwoLoop load dest count 4 state

end Stores

/-! ### Contiguous bursts -/

/-- The index and the generated iteration of a contiguous loop. -/
structure BurstLoop where
  vector : VectorState
  i : ℕ := 0
  generatedIteration : ℕ := 0

/-- A turn of a contiguous loop, where `cl` is the cycle of the vector at an index. -/
def burstTurn (regs : UnpackRegs) (cl : ℕ → ℕ) (kernel : VectorKernel) (dest : ℕ)
    (loop : BurstLoop) : BurstLoop where
  vector := kernel (cl loop.i) (loop.i * nVifT regs.format)
    (vectorIteration regs.format loop.generatedIteration) (dest + loop.i * 16) loop.vector
  i := loop.i + 1
  generatedIteration := nextIteration regs.format loop.generatedIteration

/-- A loop over the vectors of a contiguous burst. -/
def burstLoop (regs : UnpackRegs) (cl : ℕ → ℕ) (kernel : VectorKernel) (dest count : ℕ)
    (state : VectorState) : VectorState :=
  ((burstTurn regs cl kernel dest)^[count] { vector := state }).vector

section Contiguous

variable (unit : VifUnit) (regs : UnpackRegs) (source : ℕ → Byte) (isFill : Bool)
  (state : UnpackState)

/-- What the guards of the contiguous bursts share. -/
def contiguousCycle : Bool :=
  !isFill && regs.cycleCl == regs.cycleWl && regs.cycleWl != 0 && state.cl == 0 && state.num != 0

def vuMemOffset : ℕ := vitaVifVuMemPtr unit state.tagAddr

def fitsInMemory : Bool := vuMemOffset unit state + state.num.toNat * 16 ≤ vuMemSize unit

/-- What the contiguous bursts leave behind their last vector. -/
def finishBurst (vector : VectorState) : UnpackState :=
  { vector := vector
    tagAddr := state.tagAddr + BitVec.ofNat 32 (state.num.toNat * 16)
    cl := state.num.toNat % regs.cycleWl % 2 ^ 8
    num := 0 }

def vitaVifTryFastSAndV2Burst : Option UnpackState :=
  if !contiguousCycle regs isFill state || regs.doMask || !vitaVifIsSOrV2Format regs.format ||
      regs.mode % 4 != 0 then none
  else if !fitsInMemory unit state then none
  else
    some (finishBurst regs state
      (burstLoop regs (fun _ => 0) (vitaVifStorePlainUnmaskedVector source regs.format regs.usn)
        (vuMemOffset unit state) state.num.toNat state.vector))

def vitaVifTryFastV3Burst : Option UnpackState :=
  if !contiguousCycle regs isFill state || regs.doMask || !vitaVifIsV3Format regs.format ||
      regs.mode % 4 != 0 then none
  else if !fitsInMemory unit state then none
  else
    some (finishBurst regs state
      (burstLoop regs (fun _ => 0)
        (vitaVifUnpackVector regs source regs.format 0 regs.usn false
          (vitaVifGeneratedAlignment regs regs.format))
        (vuMemOffset unit state) state.num.toNat state.vector))

def isV4Format (format : ℕ) : Bool := format = 0x0c ∨ format = 0x0d ∨ format = 0x0e

def vitaVifTryFastV4Burst : Option UnpackState :=
  if !contiguousCycle regs isFill state || regs.doMask || !isV4Format regs.format ||
      regs.mode % 4 != 0 then none
  else if !fitsInMemory unit state then none
  else
    let dest := vuMemOffset unit state
    let count := state.num.toNat
    some (finishBurst regs state
      (if regs.format = 0x0c then vitaVifCopyQwordBurst source dest count state.vector
      else if regs.format = 0x0d then
        vitaVifStoreV4_16PairBurstNeon source dest count regs.usn state.vector
      else vitaVifStoreV4_8QuadBurstNeon source dest count regs.usn state.vector))

def vitaVifTryFastV4_5Burst : Option UnpackState :=
  if !contiguousCycle regs isFill state || regs.doMask || regs.format != 0x0f then none
  else if !fitsInMemory unit state then none
  else
    some (finishBurst regs state
      (burstLoop regs (fun _ => 0) (vitaVifUnpackV4_5Vector regs source false)
        (vuMemOffset unit state) state.num.toNat state.vector))

def vitaVifTryFastV4ModeBurst : Option UnpackState :=
  let mode := regs.mode % 4
  if !contiguousCycle regs isFill state || regs.doMask || !isV4Format regs.format || mode == 0 then
    none
  else if !fitsInMemory unit state then none
  else
    let dest := vuMemOffset unit state
    let count := state.num.toNat
    some (finishBurst regs state
      (if regs.format = 0x0c then v4_32ModeLoop source dest count mode state.vector
      else if regs.format = 0x0d then
        vitaVifStoreV4_16ModeBurstNeon source dest count regs.usn mode state.vector
      else vitaVifStoreV4_8ModeBurstNeon source dest count regs.usn mode state.vector))

def vitaVifTryFastModeMaskBurst : Option UnpackState :=
  let mode := regs.mode % 4
  if !contiguousCycle regs isFill state || (!regs.doMask && mode == 0) then none
  else if nVifT regs.format = 0 ∨
      (!vitaVifIsFastVectorFormat regs.format ∧ regs.format ≠ 0x0f) then none
  else if !fitsInMemory unit state then none
  else
    some (finishBurst regs state
      (burstLoop regs (fun i => i % regs.cycleWl % 2 ^ 8)
        (if regs.format = 0x0f then vitaVifUnpackV4_5Vector regs source regs.doMask
        else vitaVifUnpackVector regs source regs.format mode regs.usn regs.doMask
          (vitaVifGeneratedAlignment regs regs.format))
        (vuMemOffset unit state) state.num.toNat state.vector))

end Contiguous

/-! ### The cycle burst -/

/-- The state and the local variables of the cycle burst. -/
structure CycleLoop where
  vector : VectorState
  num : BitVec 32
  data : ℕ := 0
  cycle : ℕ := 0
  destOffset : ℕ := 0
  generatedIteration : ℕ := 0

section CycleBurst

variable (unit : VifUnit) (regs : UnpackRegs) (source : ℕ → Byte) (isFill : Bool)
  (state : UnpackState)

/-- WL zero stands for a cycle of 256 vectors. -/
def cycleBurstWl : ℕ := if regs.cycleWl ≠ 0 then regs.cycleWl else 256

def cycleBurstSkip : ℕ := if isFill then 0 else (regs.cycleCl - cycleBurstWl regs) * 16

/-- The moves behind a vector. -/
def CycleLoop.advance (vsize : ℕ) (loop : CycleLoop) : CycleLoop :=
  let cycle := loop.cycle + 1
  let loop :=
    { loop with destOffset := loop.destOffset + 16, num := loop.num - 1, cycle := cycle }
  if isFill then
    if cycle ≤ regs.cycleCl then { loop with data := loop.data + vsize }
    else if cycle = cycleBurstWl regs then { loop with cycle := 0 }
    else loop
  else if cycleBurstWl regs ≤ cycle then
    { loop with
      data := loop.data + vsize
      destOffset := loop.destOffset + cycleBurstSkip regs isFill
      cycle := 0 }
  else { loop with data := loop.data + vsize }

def cycleTurn (kernel : VectorKernel) (dest : ℕ) (loop : CycleLoop) : CycleLoop :=
  let vector := kernel (loop.cycle % 2 ^ 8) loop.data
    (vectorIteration regs.format loop.generatedIteration) (dest + loop.destOffset) loop.vector
  let loop := { loop with vector := vector }
  { loop.advance regs isFill (nVifT regs.format) with
    generatedIteration := nextIteration regs.format loop.generatedIteration }

def maxWriteEnd : ℕ :=
  state.num.toNat * 16 +
    if isFill then 0
    else (state.num.toNat - 1) / cycleBurstWl regs * ((regs.cycleCl - cycleBurstWl regs) * 16)

def vitaVifTryFastCycleBurst : Option UnpackState :=
  let mode := regs.mode % 4
  if state.cl ≠ 0 ∨ state.num = 0 ∨ nVifT regs.format = 0 ∨
      (!vitaVifIsFastVectorFormat regs.format ∧ regs.format ≠ 0x0f) then none
  else if !isFill ∧ regs.cycleCl = cycleBurstWl regs then none
  else if vuMemOffset unit state + maxWriteEnd regs isFill state > vuMemSize unit then none
  else
    let kernel :=
      if regs.format = 0x0f then vitaVifUnpackV4_5Vector regs source regs.doMask
      else vitaVifUnpackVector regs source regs.format mode regs.usn regs.doMask
        (vitaVifGeneratedAlignment regs regs.format)
    let loop := (cycleTurn regs isFill kernel (vuMemOffset unit state))^[state.num.toNat]
      { vector := state.vector, num := state.num }
    some
      { vector := loop.vector
        tagAddr := state.tagAddr + BitVec.ofNat 32 loop.destOffset
        cl := loop.cycle % 2 ^ 8
        num := loop.num }

/-- `VitaVifUnpack`. -/
def vitaVifUnpack : UnpackState :=
  (vitaVifTryFastV4Burst unit regs source isFill state <|>
    vitaVifTryFastV4_5Burst unit regs source isFill state <|>
    vitaVifTryFastSAndV2Burst unit regs source isFill state <|>
    vitaVifTryFastV3Burst unit regs source isFill state <|>
    vitaVifTryFastV4ModeBurst unit regs source isFill state <|>
    vitaVifTryFastModeMaskBurst unit regs source isFill state <|>
    vitaVifTryFastCycleBurst unit regs source isFill state <|>
    vitaVifTryFastPlainUnmasked unit regs source isFill state <|>
    vitaVifTryFastV4_5 unit regs source isFill state <|>
    vitaVifTryFastUnpack unit regs source isFill state).getD
    (vitaVifGenericUnpackLoop unit regs source isFill state)

end CycleBurst

end VitaSX2.Vif
