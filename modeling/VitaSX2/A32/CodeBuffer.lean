/-
The code buffer of the A32 emitter.

Every instruction goes through `emitU32`, which needs space in the buffer and a write
domain opened by the host's JIT memory.  The offset of the next instruction is four bytes
for each instruction written.
-/
import Mathlib.Data.Nat.Notation

namespace VitaSX2.A32

/-- The JIT memory of the host: each call answers with the capacity it makes writable. -/
structure JitMemory where
  /-- `BeginJitWrite`, from the existing size and the capacity of the buffer. -/
  beginJitWrite : ℕ → ℕ → Option ℕ
  /-- `ExpandJitWrite`, from the size to preserve and the least capacity. -/
  expandJitWrite : ℕ → ℕ → Option ℕ

structure CodeBuffer where
  /-- `m_base` is not null. -/
  base : Bool
  /-- The instructions written, in the order of their offsets. -/
  words : List (BitVec 32)
  capacity : ℕ
  outOfSpace : Bool
  writeDomainOpen : Bool
  writeCapacity : ℕ
  dirtyBegin : ℕ
  dirtyEnd : ℕ
deriving DecidableEq, Repr

namespace CodeBuffer

/-- `m_offset`. -/
def offset (buffer : CodeBuffer) : ℕ := 4 * buffer.words.length

def hasSpace (buffer : CodeBuffer) (bytes : ℕ) : Bool :=
  buffer.base && decide (bytes ≤ buffer.capacity - buffer.offset)

def markDirty (buffer : CodeBuffer) (offset size : ℕ) : CodeBuffer :=
  let finish := offset + size
  if buffer.dirtyBegin = buffer.dirtyEnd then
    { buffer with dirtyBegin := offset, dirtyEnd := finish }
  else
    { buffer with
      dirtyBegin := min buffer.dirtyBegin offset
      dirtyEnd := max buffer.dirtyEnd finish }

end CodeBuffer

/-- An emitter: its result and the buffer after it. -/
abbrev Emit := CodeBuffer → Bool × CodeBuffer

def Emit.fail : Emit := fun buffer => (false, buffer)

def Emit.skip : Emit := fun buffer => (true, buffer)

/-- `first && second`. -/
def Emit.andThen (first second : Emit) : Emit := fun buffer =>
  match first buffer with
  | (true, after) => second after
  | (false, after) => (false, after)

variable (memory : JitMemory)

def ensureWritable (requiredCapacity : ℕ) : Emit := fun buffer =>
  if buffer.writeDomainOpen then
    if requiredCapacity ≤ buffer.writeCapacity then (true, buffer)
    else
      match memory.expandJitWrite buffer.offset requiredCapacity with
      | none => (false, buffer)
      | some writeCapacity => (true, { buffer with writeCapacity := writeCapacity })
  else if ¬buffer.base ∨ requiredCapacity > buffer.capacity then (false, buffer)
  else
    match memory.beginJitWrite buffer.offset buffer.capacity with
    | none => (false, buffer)
    | some writeCapacity =>
      (true, { buffer with writeDomainOpen := true, writeCapacity := writeCapacity })

def emitU32 (instruction : BitVec 32) : Emit := fun buffer =>
  if !buffer.hasSpace 4 then (false, { buffer with outOfSpace := true })
  else
    match ensureWritable memory (buffer.offset + 4) buffer with
    | (false, after) => (false, after)
    | (true, after) =>
      (true, { after with words := after.words ++ [instruction] }.markDirty after.offset 4)

/-- Some words in a row, each through `emitU32`. -/
def emitAll : List (BitVec 32) → Emit
  | [] => Emit.skip
  | word :: words => (emitU32 memory word).andThen (emitAll words)

/-- There is buffer space for `n` words, whatever they are. -/
def SpaceFor (n : ℕ) (buffer : CodeBuffer) : Prop :=
  ∀ words : List (BitVec 32), words.length ≤ n → (emitAll memory words buffer).1 = true

section Space

variable {memory} {buffer : CodeBuffer}

lemma spaceFor_one {n : ℕ} (h : SpaceFor memory (n + 1) buffer) (word : BitVec 32) :
    (emitU32 memory word buffer).1 = true := by
  have hemit := h [word] (by simp)
  rw [emitAll, Emit.andThen] at hemit
  split at hemit
  · next hword => rw [hword]
  · exact absurd hemit (by simp)

lemma spaceFor_two {n : ℕ} (h : SpaceFor memory (n + 2) buffer) (word word' : BitVec 32) :
    ((emitU32 memory word).andThen (emitU32 memory word') buffer).1 = true := by
  have hemit := h [word, word'] (by simp)
  rw [emitAll, Emit.andThen] at hemit
  split at hemit
  · next middle hword =>
    rw [Emit.andThen, hword]
    rw [emitAll, Emit.andThen] at hemit
    split at hemit
    · next hword' => exact congrArg Prod.fst hword'
    · exact absurd hemit (by simp)
  · exact absurd hemit (by simp)

end Space

/-! ### What an emitter writes -/

/-- The emitter writes these words when it succeeds. -/
def Writes (emit : Emit) (words : List (BitVec 32)) : Prop :=
  ∀ buffer after, emit buffer = (true, after) → after.words = buffer.words ++ words

lemma writes_skip : Writes Emit.skip [] := by
  intro buffer after h
  cases h
  simp

lemma words_ensureWritable (requiredCapacity : ℕ) (buffer : CodeBuffer) :
    (ensureWritable memory requiredCapacity buffer).2.words = buffer.words := by
  rw [ensureWritable]
  split
  · split
    · rfl
    · split <;> rfl
  · split
    · rfl
    · split <;> rfl

@[simp] lemma words_markDirty (buffer : CodeBuffer) (offset size : ℕ) :
    (buffer.markDirty offset size).words = buffer.words := by
  rw [CodeBuffer.markDirty]
  split <;> rfl

lemma writes_emitU32 (instruction : BitVec 32) : Writes (emitU32 memory instruction) [instruction] := by
  intro buffer after h
  rw [emitU32] at h
  split at h
  · cases h
  · have hkept := words_ensureWritable memory (buffer.offset + 4) buffer
    generalize ensureWritable memory (buffer.offset + 4) buffer = opened at h hkept
    obtain ⟨ok, opened⟩ := opened
    cases ok with
    | false => cases h
    | true =>
      cases h
      rw [words_markDirty]
      exact congrArg (· ++ [instruction]) hkept

lemma Writes.andThen {first second : Emit} {words words' : List (BitVec 32)}
    (hfirst : Writes first words) (hsecond : Writes second words') :
    Writes (first.andThen second) (words ++ words') := by
  intro buffer after h
  rw [Emit.andThen] at h
  split at h
  · next middle hmiddle =>
    rw [hsecond _ _ h, hfirst _ _ hmiddle, List.append_assoc]
  · cases h

end VitaSX2.A32
