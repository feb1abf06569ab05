/-
The lower instructions of a VU1 pair (`VUInterpFast`): their decoding, the
registers they write, and what they do to the integer registers.

A value that an instruction loads into an integer register from elsewhere
(memory, a vector, a flag register, the VIF registers) is an argument: nothing
here depends on it.
-/
import Mathlib.Data.BitVec
import Mathlib.Data.Fin.Basic
import Mathlib.Logic.Function.Basic
import VitaSX2.Lib.FixedSize

namespace VitaSX2.Vu1

/-- `LowerFastKind`. -/
inductive LowerKind where
  | none | lq | sq | ilw | isw | iaddiu | isubiu | fcand | fcset | fceq | fcor | fseq | fsset
  | fsand | fsor | fmeq | fmand | fmor | fcget | iadd | isub | iaddi | iand | ior | lqi | lqd
  | sqi | sqd | ilwr | iswr | move | mr32 | mfir | mtir | rinit | rget | rnext | rxor | ibeq
  | ibne | ibltz | ibgtz | iblez | ibgez | b | bal | jr | jalr | mfp | waitq | waitp | xitop
  | xtop | div | sqrt | rsqrt | xgkick | esadd | ersadd | eleng | erleng | eatanxy | eatanxz
  | esum | ercpr | esqrt | ersqrt | esin | eatan | eexp
deriving DecidableEq, Repr

/-! ### Fields of an instruction word -/

/-- `Ft`: the vector field that `It` is the low part of. -/
def ft (code : BitVec 32) : BitVec 5 := code.extractLsb' 16 5

/-- `Fs`. -/
def fs (code : BitVec 32) : BitVec 5 := code.extractLsb' 11 5

/-- `It`. -/
def viIt (code : BitVec 32) : Fin 16 := (code.extractLsb' 16 4).toFin

/-- `Is`. -/
def viIs (code : BitVec 32) : Fin 16 := (code.extractLsb' 11 4).toFin

/-- `Id`. -/
def viId (code : BitVec 32) : Fin 16 := (code.extractLsb' 6 4).toFin

/-- `XYZW`. -/
def xyzw (code : BitVec 32) : BitVec 4 := code.extractLsb' 21 4

/-- `Imm5`. -/
def imm5 (code : BitVec 32) : BitVec 16 := (code.extractLsb' 6 5).signExtend 16

/-- `Imm11`. -/
def imm11 (code : BitVec 32) : ℤ := (code.extractLsb' 0 11).toInt

/-- `Imm15`. -/
def imm15 (code : BitVec 32) : BitVec 16 :=
  ((code >>> 10 &&& 0x7800#32) ||| (code &&& 0x7ff#32)).setWidth 16

/-! ### Decoding -/

/-- The inner tables of `DecodeLower`. -/
def decodeLowerSpecial (code : BitVec 32) : LowerKind :=
  match (code &&& 0x3f#32).toNat, (code >>> 6 &&& 0x1f#32).toNat with
  | 0x30, _ => .iadd
  | 0x31, _ => .isub
  | 0x32, _ => .iaddi
  | 0x34, _ => .iand
  | 0x35, _ => .ior
  | 0x3c, 0x0c => .move
  | 0x3c, 0x0d => .lqi
  | 0x3c, 0x0e => .div
  | 0x3c, 0x0f => .mtir
  | 0x3c, 0x10 => .rnext
  | 0x3c, 0x19 => .mfp
  | 0x3c, 0x1a => .xtop
  | 0x3c, 0x1b => .xgkick
  | 0x3c, 0x1c => .esadd
  | 0x3c, 0x1d => .eatanxy
  | 0x3c, 0x1e => .esqrt
  | 0x3c, 0x1f => .esin
  | 0x3d, 0x0c => .mr32
  | 0x3d, 0x0d => .sqi
  | 0x3d, 0x0e => .sqrt
  | 0x3d, 0x0f => .mfir
  | 0x3d, 0x10 => .rget
  | 0x3d, 0x1a => .xitop
  | 0x3d, 0x1c => .ersadd
  | 0x3d, 0x1d => .eatanxz
  | 0x3d, 0x1e => .ersqrt
  | 0x3d, 0x1f => .eatan
  | 0x3e, 0x0d => .lqd
  | 0x3e, 0x0e => .rsqrt
  | 0x3e, 0x0f => .ilwr
  | 0x3e, 0x10 => .rinit
  | 0x3e, 0x1c => .eleng
  | 0x3e, 0x1d => .esum
  | 0x3e, 0x1e => .ercpr
  | 0x3e, 0x1f => .eexp
  | 0x3f, 0x0d => .sqd
  | 0x3f, 0x0e => .waitq
  | 0x3f, 0x0f => .iswr
  | 0x3f, 0x10 => .rxor
  | 0x3f, 0x1c => .erleng
  | 0x3f, 0x1e => .waitp
  | _, _ => .none

/-- `DecodeLower`. -/
def decodeLower (code : BitVec 32) : LowerKind :=
  match (code >>> 25).toNat with
  | 0x00 => .lq
  | 0x01 => .sq
  | 0x04 => .ilw
  | 0x05 => .isw
  | 0x08 => .iaddiu
  | 0x09 => .isubiu
  | 0x12 => .fcand
  | 0x11 => .fcset
  | 0x10 => .fceq
  | 0x13 => .fcor
  | 0x14 => .fseq
  | 0x15 => .fsset
  | 0x16 => .fsand
  | 0x17 => .fsor
  | 0x18 => .fmeq
  | 0x1a => .fmand
  | 0x1b => .fmor
  | 0x1c => .fcget
  | 0x20 => .b
  | 0x21 => .bal
  | 0x24 => .jr
  | 0x25 => .jalr
  | 0x28 => .ibeq
  | 0x29 => .ibne
  | 0x2c => .ibltz
  | 0x2d => .ibgtz
  | 0x2e => .iblez
  | 0x2f => .ibgez
  | 0x40 => decodeLowerSpecial code
  | _ => .none

/-- What the pair analysis reads of `_VURegsNum`. -/
structure VuRegsNum where
  vfWrite : ℕ
  viWrite : BitVec 32
deriving DecidableEq, Repr

/-- The bit of an integer register in a write mask. -/
def viBit (reg : Fin 16) : BitVec 32 := 1#32 <<< reg.val

def regClipFlag : ℕ := 18
def regR : ℕ := 20
def regQ : ℕ := 22
def regP : ℕ := 23
def regStatusFlag : ℕ := 16

/-- `AnalyzeLowerNoUpperKnownKind`. -/
def analyzeLowerNoUpper (code : BitVec 32) : LowerKind → Option VuRegsNum
  | .none => none
  | .lq | .move | .mr32 | .mfir | .rget | .mfp => some ⟨(ft code).toNat, 0⟩
  | .lqi | .lqd => some ⟨(ft code).toNat, viBit (viIs code)⟩
  | .rnext => some ⟨(ft code).toNat, 1#32 <<< regR⟩
  | .ilw | .iaddiu | .isubiu | .iaddi | .fseq | .fsand | .fsor | .fmeq | .fmand | .fmor | .fcget
  | .sqi | .sqd | .ilwr | .mtir | .bal | .jalr | .xitop | .xtop => some ⟨0, viBit (viIt code)⟩
  | .iadd | .isub | .iand | .ior => some ⟨0, viBit (viId code)⟩
  | .fcand | .fceq | .fcor => some ⟨0, viBit 1⟩
  | .fcset => some ⟨0, 1#32 <<< regClipFlag⟩
  | .fsset => some ⟨0, 1#32 <<< regStatusFlag⟩
  | .rinit | .rxor => some ⟨0, 1#32 <<< regR⟩
  | .div | .sqrt | .rsqrt => some ⟨0, 1#32 <<< regQ⟩
  | .esadd | .ersadd | .eleng | .erleng | .eatanxy | .eatanxz | .esum | .ercpr | .esqrt | .ersqrt
  | .esin | .eatan | .eexp => some ⟨0, 1#32 <<< regP⟩
  | .sq | .isw | .iswr | .ibeq | .ibne | .ibltz | .ibgtz | .iblez | .ibgez | .jr | .b | .waitq
  | .waitp | .xgkick => some ⟨0, 0⟩

/-! ### The kinds of branches -/

/-- `IsConditionalImmediateBranch`. -/
def isConditionalImmediateBranch : LowerKind → Bool
  | .ibeq | .ibne | .ibltz | .ibgtz | .iblez | .ibgez => true
  | _ => false

/-- `IsUnconditionalImmediateBranch`. -/
def isUnconditionalImmediateBranch : LowerKind → Bool
  | .b | .bal => true
  | _ => false

/-- `IsImmediateBranch`. -/
def isImmediateBranch (kind : LowerKind) : Bool :=
  isConditionalImmediateBranch kind || isUnconditionalImmediateBranch kind

/-- `IsIndirectBranch`. -/
def isIndirectBranch : LowerKind → Bool
  | .jr | .jalr => true
  | _ => false

/-- `IsBranch`. -/
def isBranch (kind : LowerKind) : Bool := isImmediateBranch kind || isIndirectBranch kind

/-! ### The integer registers -/

/-- The sixteen integer registers. -/
abbrev ViFile := Fin 16 → BitVec 16

/-- A write through a field that names register 0 writes nothing. -/
def ViFile.write (vi : ViFile) (reg : Fin 16) (value : BitVec 16) : ViFile :=
  if reg = 0 then vi else Function.update vi reg value

/-- `ExecuteLowerNoUpperKnownKind` on the integer registers, without the branches.
The post-increments test the five-bit field and step the four-bit register. -/
def executeLowerVi (code : BitVec 32) (loaded : BitVec 16) (vi : ViFile) : LowerKind → ViFile
  | .ilw | .ilwr => if xyzw code = 0 then vi else vi.write (viIt code) loaded
  | .iaddiu => vi.write (viIt code) (vi (viIs code) + imm15 code)
  | .isubiu => vi.write (viIt code) (vi (viIs code) - imm15 code)
  | .iaddi => vi.write (viIt code) (vi (viIs code) + imm5 code)
  | .iadd => vi.write (viId code) (vi (viIs code) + vi (viIt code))
  | .isub => vi.write (viId code) (vi (viIs code) - vi (viIt code))
  | .iand => vi.write (viId code) (vi (viIs code) &&& vi (viIt code))
  | .ior => vi.write (viId code) (vi (viIs code) ||| vi (viIt code))
  | .fcand | .fceq | .fcor => vi.write 1 loaded
  | .fseq | .fsand | .fsor | .fmeq | .fmand | .fmor | .fcget | .mtir | .xitop | .xtop =>
    vi.write (viIt code) loaded
  | .lqi => if fs code = 0 then vi else Function.update vi (viIs code) (vi (viIs code) + 1)
  | .lqd => vi.write (viIs code) (vi (viIs code) - 1)
  | .sqi => if ft code = 0 then vi else Function.update vi (viIt code) (vi (viIt code) + 1)
  | .sqd => if ft code = 0 then vi else Function.update vi (viIt code) (vi (viIt code) - 1)
  | _ => vi

lemma ViFile.write_of_ne {vi : ViFile} {reg other : Fin 16} {value : BitVec 16}
    (h : other ≠ reg) : vi.write reg value other = vi other := by
  rw [ViFile.write]
  split
  next => rfl
  next => exact Function.update_of_ne h _ _

lemma ite_of_ne {vi changed : ViFile} {other : Fin 16} {c : Prop} [Decidable c]
    (h : changed other = vi other) : (if c then vi else changed) other = vi other := by
  split
  next => rfl
  next => exact h

lemma getLsbD_viBit {reg other : Fin 16} : (viBit reg).getLsbD other = decide (other = reg) := by
  decide +revert

lemma ne_of_viBit {reg other : Fin 16} (h : (viBit reg).getLsbD other = false) : other ≠ reg := by
  rwa [getLsbD_viBit, decide_eq_false_iff_not] at h

/-- An instruction writes no integer register outside its mask. -/
lemma executeLowerVi_frame {code : BitVec 32} {loaded : BitVec 16} {vi : ViFile}
    {kind : LowerKind} {regs : VuRegsNum} (h : analyzeLowerNoUpper code kind = some regs)
    {reg : Fin 16} (hreg : regs.viWrite.getLsbD reg = false) :
    executeLowerVi code loaded vi kind reg = vi reg := by
  cases kind
  -- The kinds without an integer destination.
  all_goals
    cases h
    try rfl
  all_goals have hne := ne_of_viBit hreg
  all_goals first
    | exact ViFile.write_of_ne hne
    | exact ite_of_ne (ViFile.write_of_ne hne)
    | exact ite_of_ne (Function.update_of_ne hne _ _)

end VitaSX2.Vu1
