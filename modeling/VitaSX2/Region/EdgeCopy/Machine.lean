/-
The machine on which edge copies are executed, and the parallel-copy contract
of the scheduler.

Every destructible place is a range of bytes of a bank: core words, cycle words
and VFP scalars are four bytes each, a Neon register is sixteen bytes with its
lanes in order, and a spill location is a range of the frame.  Canonical words
and immediates are read-only.
-/
import VitaSX2.Region.EdgeCopy.Schedule

namespace VitaSX2.RegionAllocation

inductive Bank
  | core
  | cycle
  | vfpS
  | neonQ
  | frame
deriving DecidableEq, Repr

structure Machine where
  bytes : Bank → ℕ → BitVec 8
  /-- The words of the canonical-state slots. -/
  canonical : ℕ → ℕ → BitVec 32
  /-- The words of the immediates, by the value they belong to. -/
  literal : ValueId → ℕ → BitVec 32

/-- The first byte of one component of a place. -/
def address (location : Location) (word : ℕ) : Option (Bank × ℕ) :=
  let fragment := componentLocation location word
  match fragment.kind with
  | .core => some (.core, fragment.index * 4)
  | .fixedCycle => some (.cycle, fragment.index * 4)
  | .vfpS => some (.vfpS, fragment.index * 4)
  | .neonQ => some (.neonQ, fragment.index * 16 + word * 4)
  | .spill => some (.frame, fragment.index)
  | _ => none

namespace Machine

variable (σ : Machine)

def readWord (cell : Bank × ℕ) : BitVec 32 :=
  σ.bytes cell.1 (cell.2 + 3) ++ σ.bytes cell.1 (cell.2 + 2) ++ σ.bytes cell.1 (cell.2 + 1) ++
    σ.bytes cell.1 cell.2

def writeWord (cell : Bank × ℕ) (value : BitVec 32) : Machine :=
  { σ with
    bytes := fun bank offset =>
      if bank = cell.1 ∧ cell.2 ≤ offset ∧ offset < cell.2 + 4 then
        value.extractLsb' (8 * (offset - cell.2)) 8
      else σ.bytes bank offset }

/-- The value of one component of a place that holds (part of) an SSA value. -/
def readComponent (source : ValueId) (location : Location) (word : ℕ) : BitVec 32 :=
  match address location word with
  | some cell => σ.readWord cell
  | none =>
    match (componentLocation location word).kind with
    | .immediate => σ.literal source word
    | .canonicalState => σ.canonical (componentLocation location word).index word
    | _ => 0

def writeComponent (location : Location) (word : ℕ) (value : BitVec 32) : Machine :=
  match address location word with
  | some cell => σ.writeWord cell value
  | none => σ

/-- Copy one component. -/
def copyComponent (source : ValueId) (src dst : Location) (word : ℕ) : Machine :=
  σ.writeComponent dst word (σ.readComponent source src word)

/-- Execute one step: its components are copied in ascending order. -/
def runStep (step : EdgeCopyStep) : Machine :=
  (maskWords step.wordMask).foldl
    (fun τ word => τ.copyComponent step.source step.sourceLocation step.targetLocation word) σ

def runSteps (steps : List EdgeCopyStep) : Machine :=
  steps.foldl runStep σ

end Machine

/-- The steps emitted for the edge of a move. -/
def edgeSteps (steps : List EdgeCopyStep) (move : EdgeMove) : List EdgeCopyStep :=
  steps.filter fun step =>
    step.sourceBlock == move.sourceBlock && step.targetBlock == move.targetBlock &&
      step.edgeIndex == move.edgeIndex

/-- On every edge the steps leave in each demanded component of each target what
the matching source component held before the first step. -/
def ParallelCopy (moves : List EdgeMove) (steps : List EdgeCopyStep) : Prop :=
  ∀ move ∈ moves, ∀ (σ : Machine), ∀ word ∈ maskWords (copyMask move),
    (σ.runSteps (edgeSteps steps move)).readComponent move.targetParameter
        move.targetLocation word =
      σ.readComponent move.source move.sourceLocation word

/-- The scheduler terminates, and its steps are a parallel copy when it succeeds. -/
def EdgeCopyContract (moves : List EdgeMove) (spillBytes maxSpillBytes : ℕ) : Prop :=
  ∃ fuel result, buildEdgeCopySchedule fuel moves spillBytes maxSpillBytes = some result ∧
    (result.failure = .none → ParallelCopy moves result.steps)

/-! ### Reads after writes -/

/-- Two words share no byte. -/
def CellsDisjoint (a b : Bank × ℕ) : Prop :=
  a.1 ≠ b.1 ∨ a.2 + 4 ≤ b.2 ∨ b.2 + 4 ≤ a.2

lemma CellsDisjoint.symm {a b : Bank × ℕ} (h : CellsDisjoint a b) : CellsDisjoint b a := by
  rcases h with h | h | h
  · exact Or.inl h.symm
  · exact Or.inr (Or.inr h)
  · exact Or.inr (Or.inl h)

namespace Machine

variable {σ : Machine}

@[simp] lemma writeWord_canonical (cell : Bank × ℕ) (value : BitVec 32) :
    (σ.writeWord cell value).canonical = σ.canonical := rfl

@[simp] lemma writeWord_literal (cell : Bank × ℕ) (value : BitVec 32) :
    (σ.writeWord cell value).literal = σ.literal := rfl

lemma readWord_writeWord_self (cell : Bank × ℕ) (value : BitVec 32) :
    (σ.writeWord cell value).readWord cell = value := by
  have h3 : 8 * (cell.2 + 3 - cell.2) = 24 := by omega
  have h2 : 8 * (cell.2 + 2 - cell.2) = 16 := by omega
  have h1 : 8 * (cell.2 + 1 - cell.2) = 8 := by omega
  have h0 : 8 * (cell.2 - cell.2) = 0 := by omega
  simp only [readWord, writeWord]
  rw [if_pos ⟨trivial, by omega, by omega⟩, if_pos ⟨trivial, by omega, by omega⟩,
    if_pos ⟨trivial, by omega, by omega⟩, if_pos ⟨trivial, by omega, by omega⟩, h3, h2, h1, h0]
  ext i hi
  simp only [BitVec.getElem_append, BitVec.getElem_extractLsb']
  split
  · rw [BitVec.getLsbD_eq_getElem (by omega)]; congr 1; omega
  · split
    · rw [BitVec.getLsbD_eq_getElem (by omega)]; congr 1; omega
    · split
      · rw [BitVec.getLsbD_eq_getElem (by omega)]; congr 1; omega
      · rw [BitVec.getLsbD_eq_getElem (by omega)]; congr 1; omega

lemma readWord_writeWord_of_disjoint {cell other : Bank × ℕ} (value : BitVec 32)
    (h : CellsDisjoint cell other) : (σ.writeWord cell value).readWord other = σ.readWord other := by
  have hbyte : ∀ k < 4, (σ.writeWord cell value).bytes other.1 (other.2 + k) =
      σ.bytes other.1 (other.2 + k) := by
    intro k hk
    refine if_neg ?_
    rintro ⟨hbank, hlo, hhi⟩
    rcases h with h | h | h
    · exact h hbank.symm
    · omega
    · omega
  have h0 := hbyte 0 (by omega)
  simp only [Nat.add_zero] at h0
  simp only [readWord, hbyte 3 (by omega), hbyte 2 (by omega), hbyte 1 (by omega), h0]

lemma readComponent_of_address {location : Location} {word : ℕ} {cell : Bank × ℕ}
    (h : address location word = some cell) (source : ValueId) :
    σ.readComponent source location word = σ.readWord cell := by
  simp only [readComponent, h]

/-- The components of the target of a copy, and what the copy leaves alone. -/
lemma foldl_copyComponent (source : ValueId) (src dst : Location) :
    ∀ (words : List ℕ) (σ : Machine), words.Nodup →
      (∀ word ∈ words, (address dst word).isSome) →
      (∀ word ∈ words, ∀ word' ∈ words, word ≠ word' →
        ∀ a ∈ address dst word, ∀ b ∈ address dst word', CellsDisjoint a b) →
      (∀ word ∈ words, ∀ word' ∈ words,
        ∀ a ∈ address dst word, ∀ b ∈ address src word', CellsDisjoint a b) →
      let τ := words.foldl (fun τ word => τ.copyComponent source src dst word) σ
      (∀ word ∈ words, ∀ target,
        τ.readComponent target dst word = σ.readComponent source src word) ∧
      (∀ b, (∀ word ∈ words, ∀ a ∈ address dst word, CellsDisjoint a b) →
        τ.readWord b = σ.readWord b) ∧
      τ.canonical = σ.canonical ∧ τ.literal = σ.literal := by
  intro words
  induction words with
  | nil => intro σ _ _ _ _; simp
  | cons word rest ih =>
    intro σ hnodup hsome htargets hsources
    obtain ⟨hnotin, hrest⟩ := List.nodup_cons.1 hnodup
    obtain ⟨a, ha⟩ := Option.isSome_iff_exists.1 (hsome word (by simp))
    set σ' := σ.copyComponent source src dst word with hσ'
    have hcopy : σ' = σ.writeWord a (σ.readComponent source src word) := by
      simp only [hσ', copyComponent, writeComponent, ha]
    obtain ⟨hcopied, hframe, hcanonical, hliteral⟩ := ih σ' hrest
      (fun w hw => hsome w (List.mem_cons_of_mem _ hw))
      (fun w hw w' hw' => htargets w (List.mem_cons_of_mem _ hw) w' (List.mem_cons_of_mem _ hw'))
      (fun w hw w' hw' => hsources w (List.mem_cons_of_mem _ hw) w' (List.mem_cons_of_mem _ hw'))
    have hcan : σ'.canonical = σ.canonical := by rw [hcopy, writeWord_canonical]
    have hlit : σ'.literal = σ.literal := by rw [hcopy, writeWord_literal]
    -- the source components are still intact after the first copy
    have hintact : ∀ w ∈ rest, σ'.readComponent source src w = σ.readComponent source src w := by
      intro w hw
      unfold readComponent
      cases hb : address src w with
      | none => simp only [hcan, hlit]
      | some b =>
        simp only [hcopy]
        exact readWord_writeWord_of_disjoint _
          (hsources word (by simp) w (List.mem_cons_of_mem _ hw) a ha b hb)
    refine ⟨?_, ?_, ?_, ?_⟩
    · intro w hw target
      rcases List.mem_cons.1 hw with rfl | hw
      · have hkeep := hframe a (fun w' hw' a' ha' =>
          htargets w' (List.mem_cons_of_mem _ hw') w (by simp)
            (fun h => hnotin (h ▸ hw')) a' ha' a ha)
        rw [List.foldl_cons, readComponent_of_address ha, hkeep, hcopy, readWord_writeWord_self]
      · rw [List.foldl_cons, hcopied w hw target, hintact w hw]
    · intro b hb
      rw [List.foldl_cons, hframe b (fun w hw => hb w (List.mem_cons_of_mem _ hw)), hcopy]
      exact readWord_writeWord_of_disjoint _ (hb word (by simp) a ha)
    · rw [List.foldl_cons, hcanonical, hcan]
    · rw [List.foldl_cons, hliteral, hlit]

end Machine

end VitaSX2.RegionAllocation
