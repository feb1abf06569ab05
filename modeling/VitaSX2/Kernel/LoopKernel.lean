/-
The expression graph of a parallel loop kernel (`VitaGpuVuLoopKernel.h`).

A kernel has one expression node per scalar value, the first of which stands for
no node, and the qword stores of one iteration.  Addresses are affine in the
outer and the child iteration and wrap at the 1024 qwords of VU memory.
-/
import VitaSX2.Lib.DisjointWrites
import Mathlib.Data.Int.Notation

namespace VitaSX2.Kernel

inductive ExpressionKind
  | constantFloat
  | constantSigned
  | constantUnsigned
  | initialVf
  | initialAcc
  | initialQ
  | initialP
  | initialI
  | invariantVf
  | invariantAcc
  | invariantQ
  | invariantP
  | invariantI
  | compactOuterInput
  | structuredScratch
  | memory
  | add
  | subtract
  | multiply
  | roundedAdd
  | roundedSubtract
  | roundedMultiply
  | divide
  | minimum
  | maximum
  | absolute
  | negate
  | reciprocal
  | squareRoot
  | efuSumXyzSquares
  | armApproximateReciprocal
  | armApproximateSquareRoot
  | reciprocalSquareRoot
  | floatToInt
  | intToFloat
  | normalize
  | outerRepeatedAdd
deriving DecidableEq, Repr

structure AffineQwordAddress where
  baseVi : ℕ
  valid : Bool
  invocationCoefficient : ℤ
  qwordOffset : ℤ
  outerInvocationCoefficient : ℤ
deriving DecidableEq, Repr

def affineViBaseVifTop : ℕ := 16

def affineViBaseVifItop : ℕ := 17

/-- The registers an address refers to at the entry of the child loop. -/
structure AddressBase where
  childEntryVi : Fin 16 → BitVec 16
  vifTop : BitVec 16
  vifItop : BitVec 16

def AddressBase.value (base : AddressBase) (baseVi : ℕ) : Option (BitVec 16) :=
  if h : baseVi < 16 then some (if baseVi = 0 then 0 else base.childEntryVi ⟨baseVi, h⟩)
  else if baseVi = affineViBaseVifTop then some base.vifTop
  else if baseVi = affineViBaseVifItop then some base.vifItop
  else none

/-- A qword of VU memory. -/
abbrev Qword := Fin 1024

def wrapQword (address : ℤ) : Qword :=
  ⟨(address % 1024).toNat, by
    have hpos := Int.emod_nonneg address (by decide : (1024 : ℤ) ≠ 0)
    have hlt := Int.emod_lt_of_pos address (by decide : (0 : ℤ) < 1024)
    omega⟩

/-- An outer and a child iteration. -/
abbrev Invocation := ℕ × ℕ

def evaluateAffineQwordRuntimeAddress (base : AddressBase) (address : AffineQwordAddress)
    (invocation : Invocation) : Option Qword :=
  if address.valid then
    (base.value address.baseVi).map fun value =>
      wrapQword (value.toNat + address.qwordOffset +
        invocation.1 * address.outerInvocationCoefficient +
        invocation.2 * address.invocationCoefficient)
  else none

abbrev NodeId := ℕ

def invalidNode : NodeId := 0

structure ExpressionNode where
  kind : ExpressionKind
  reg : ℕ
  lane : ℕ
  operands : Fin 3 → NodeId
  memoryAddress : AffineQwordAddress
  immediate : ℕ

structure LoopStore where
  address : AffineQwordAddress
  values : Fin 4 → NodeId
  writeMask : BitVec 8

inductive CompactQwordSourceKind
  | initialVf
  | memory
deriving DecidableEq, Repr

structure CompactQwordSource where
  kind : CompactQwordSourceKind
  reg : ℕ
  memoryAddress : AffineQwordAddress

structure ParallelLoopKernel where
  outerIterationCount : ℕ
  childIterationCount : ℕ
  expressions : List ExpressionNode
  stores : List LoopStore
  compactOuterInputs : List (List CompactQwordSource)

/-- The bit of a lane in a write mask: the highest of the four for `x`. -/
def laneBit (lane : ℕ) : BitVec 8 := 0x8#8 >>> lane

def LoopStore.laneMask (store : LoopStore) : BitVec 8 := store.writeMask &&& 0x0f#8

/-- The lanes a store writes. -/
def LoopStore.lanes (store : LoopStore) : List (Fin 4) :=
  (List.finRange 4).filter fun lane => store.writeMask &&& laneBit lane != 0

/-! ### Evaluation -/

/-- A word of VU memory. -/
abbrev Lane := Qword × Fin 4

abbrev VuMemory := Lane → BitVec 32

/-- What an expression may depend on besides memory: the registers at the entry
of the program, and for every other node an arbitrary function of its operands. -/
structure Semantics where
  base : AddressBase
  initialVf : ℕ → Fin 4 → BitVec 32
  apply : ExpressionNode → Invocation → (Fin 3 → Option (BitVec 32)) → BitVec 32

variable (kernel : ParallelLoopKernel) (semantics : Semantics)

/-- The lane of memory that a node reads in an invocation, if it reads memory. -/
def ExpressionNode.readLane (node : ExpressionNode) (invocation : Invocation) : Option Lane :=
  if hlane : node.lane < 4 then
    match node.kind with
    | .memory =>
      (evaluateAffineQwordRuntimeAddress semantics.base node.memoryAddress invocation).map
        fun qword => (qword, ⟨node.lane, hlane⟩)
    | .compactOuterInput =>
      ((kernel.compactOuterInputs[node.immediate]?).bind
        fun sources => sources[invocation.1]?).bind fun source =>
        match source.kind with
        | .initialVf => none
        | .memory =>
          (evaluateAffineQwordRuntimeAddress semantics.base source.memoryAddress (0, 0)).map
            fun qword => (qword, ⟨node.lane, hlane⟩)
    | _ => none
  else none

/-- The value of a compact input that is a register. -/
def ExpressionNode.compactRegister (node : ExpressionNode) (invocation : Invocation) : BitVec 32 :=
  match (kernel.compactOuterInputs[node.immediate]?).bind
      fun sources => sources[invocation.1]? with
  | some source =>
    if hlane : node.lane < 4 then semantics.initialVf source.reg ⟨node.lane, hlane⟩ else 0
  | none => 0

/-- The value of a node, to a depth that bounds the graph below it. -/
def evaluate (memory : VuMemory) (invocation : Invocation) : ℕ → NodeId → BitVec 32
  | 0, _ => 0
  | depth + 1, id =>
    match kernel.expressions[id]? with
    | none => 0
    | some node =>
      match node.readLane kernel semantics invocation with
      | some lane => memory lane
      | none =>
        if node.kind = .compactOuterInput then
          node.compactRegister kernel semantics invocation
        else
          semantics.apply node invocation fun operand =>
            if node.operands operand = invalidNode then none
            else some (evaluate memory invocation depth (node.operands operand))

/-- In a graph without cycles the depth does not matter once it exceeds the rank. -/
lemma evaluate_stable {rank : NodeId → ℕ}
    (hrank : ∀ (id : NodeId) (node : ExpressionNode), kernel.expressions[id]? = some node →
      ∀ operand, node.operands operand ≠ invalidNode → rank (node.operands operand) < rank id)
    (memory : VuMemory) (invocation : Invocation) {depth : ℕ} {id : NodeId} (h : rank id < depth) :
    evaluate kernel semantics memory invocation (depth + 1) id =
      evaluate kernel semantics memory invocation depth id := by
  induction depth generalizing id with
  | zero => exact absurd h (Nat.not_lt_zero _)
  | succ depth ih =>
    rw [evaluate, evaluate]
    cases hnode : kernel.expressions[id]? with
    | none => rfl
    | some node =>
      have hoperands : ∀ operand,
          (if node.operands operand = invalidNode then none
            else some (evaluate kernel semantics memory invocation (depth + 1)
              (node.operands operand))) =
          if node.operands operand = invalidNode then none
            else some (evaluate kernel semantics memory invocation depth
              (node.operands operand)) := by
        intro operand
        by_cases hoperand : node.operands operand = invalidNode
        · rw [if_pos hoperand, if_pos hoperand]
        · have hlt := hrank id node hnode operand hoperand
          rw [if_neg hoperand, if_neg hoperand, ih (by omega)]
      simp only [hoperands]

/-! ### Invocations -/

/-- The lane writes of a store. -/
def LoopStore.writes (depth : ℕ) (memory : VuMemory) (invocation : Invocation) (store : LoopStore) :
    List (Lane × BitVec 32) :=
  match evaluateAffineQwordRuntimeAddress semantics.base store.address invocation with
  | none => []
  | some qword =>
    store.lanes.map fun lane =>
      ((qword, lane), evaluate kernel semantics memory invocation depth (store.values lane))

/-- The lane writes of one invocation. -/
def invocationWrites (depth : ℕ) (memory : VuMemory) (invocation : Invocation) :
    List (Lane × BitVec 32) :=
  kernel.stores.flatMap (LoopStore.writes kernel semantics depth memory invocation)

/-- The invocations of a grid in row-major order. -/
def grid (outerIterationCount childIterationCount : ℕ) : List Invocation :=
  (List.range outerIterationCount).flatMap fun outer =>
    (List.range childIterationCount).map fun child => (outer, child)

lemma mem_grid {outers children : ℕ} {invocation : Invocation} :
    invocation ∈ grid outers children ↔ invocation.1 < outers ∧ invocation.2 < children := by
  obtain ⟨outer, child⟩ := invocation
  simp [grid]

end VitaSX2.Kernel
