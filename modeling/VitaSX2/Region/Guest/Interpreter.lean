/-
The integer instructions of the R5900 interpreter (`R5900OpcodeImpl.cpp`) and its
branches (`Interpreter.cpp`).

A step is one instruction, or a branch together with its delay slot.  An
instruction that raises an exception, or that is none of the modelled ones, has
no step.  Guest memory is a parameter, since an access may have side effects.
-/
import VitaSX2.Region.IR.Lower

namespace VitaSX2.R5900

open RegionIR (U128)

/-! ### Registers and memory -/

/-- The accesses of `memRead8` to `memWrite128` over a memory `μ`. -/
structure GuestMemory (μ : Type) where
  memRead8 : BitVec 32 → μ → BitVec 8 × μ
  memRead16 : BitVec 32 → μ → BitVec 16 × μ
  memRead32 : BitVec 32 → μ → BitVec 32 × μ
  memRead64 : BitVec 32 → μ → BitVec 64 × μ
  memRead128 : BitVec 32 → μ → U128 × μ
  memWrite8 : BitVec 32 → BitVec 8 → μ → μ
  memWrite16 : BitVec 32 → BitVec 16 → μ → μ
  memWrite32 : BitVec 32 → BitVec 32 → μ → μ
  memWrite64 : BitVec 32 → BitVec 64 → μ → μ
  memWrite128 : BitVec 32 → U128 → μ → μ

/-- `cpuRegs`, as far as integer instructions use it, and the memory. -/
structure Cpu (μ : Type) where
  gpr : Fin 32 → U128
  hi : U128
  lo : U128
  sa : BitVec 32
  pc : BitVec 32
  memory : μ

variable {μ : Type}

namespace Cpu

/-- `GPR.r[i]`. -/
def reg (cpu : Cpu μ) (i : ℕ) : U128 := cpu.gpr (Fin.ofNat 32 i)

/-- `GPR.r[i].UD[0]`. -/
def ud (cpu : Cpu μ) (i : ℕ) : BitVec 64 := (cpu.reg i).lo

/-- `GPR.r[i].UL[0]`. -/
def ul (cpu : Cpu μ) (i : ℕ) : BitVec 32 := (cpu.ud i).setWidth 32

/-- `GPR.r[i] = value`. -/
def setReg (cpu : Cpu μ) (i : ℕ) (value : U128) : Cpu μ :=
  { cpu with gpr := Function.update cpu.gpr (Fin.ofNat 32 i) value }

/-- `GPR.r[i].UD[0] = value`. -/
def setUd (cpu : Cpu μ) (i : ℕ) (value : BitVec 64) : Cpu μ :=
  cpu.setReg i { cpu.reg i with lo := value }

/-- The zero register keeps its value: `if (!_Rd_) return`. -/
def writeUd (cpu : Cpu μ) (i : ℕ) (value : BitVec 64) : Cpu μ :=
  if i = 0 then cpu else cpu.setUd i value

/-- A word into a register, sign-extended. -/
def writeSl (cpu : Cpu μ) (i : ℕ) (value : BitVec 32) : Cpu μ :=
  cpu.writeUd i (value.signExtend 64)

/-- `memRead128` into `gpr_GetWritePtr`, which is a dummy for the zero register. -/
def writeUq (cpu : Cpu μ) (i : ℕ) (value : U128) : Cpu μ :=
  if i = 0 then cpu else cpu.setReg i value

def setLo (cpu : Cpu μ) (value : BitVec 64) : Cpu μ := { cpu with lo := { cpu.lo with lo := value } }

def setHi (cpu : Cpu μ) (value : BitVec 64) : Cpu μ := { cpu with hi := { cpu.hi with lo := value } }

/-- `_SetLink`, with `pc` at the delay slot. -/
def setLink (cpu : Cpu μ) (i : ℕ) : Cpu μ := cpu.setUd i ((cpu.pc + 4).setWidth 64)

end Cpu

/-! ### Fields of an instruction -/

section Fields

variable (code : BitVec 32)

def rs : ℕ := code.toNat / 2 ^ 21 % 32

def rt : ℕ := code.toNat / 2 ^ 16 % 32

def rd : ℕ := code.toNat / 2 ^ 11 % 32

def sa : ℕ := code.toNat / 2 ^ 6 % 32

/-- `_Imm_`. -/
def imm : BitVec 16 := code.setWidth 16

/-- `_Imm_` as a word and as a doubleword. -/
def imm32 : BitVec 32 := (imm code).signExtend 32

def imm64 : BitVec 64 := (imm code).signExtend 64

/-- `_ImmU_`. -/
def immU : BitVec 64 := (imm code).setWidth 64

end Fields

/-! ### Instructions -/

section Instructions

variable (code : BitVec 32) (cpu : Cpu μ)

/-- A truth value as a doubleword. -/
def flag (condition : Bool) : BitVec 64 := if condition then 1 else 0

/-- `_add32_Overflow`: the sum, unless its bit 32 differs from bit 31. -/
def add32Overflow (x y : BitVec 32) : Option (BitVec 64) :=
  let result := x.signExtend 64 + y.signExtend 64
  if result.getLsbD 31 ≠ result.getLsbD 32 then none else some result

def ADDI : Option (Cpu μ) :=
  (add32Overflow (cpu.ul (rs code)) (imm32 code)).map (cpu.writeUd (rt code))

def ADDIU : Cpu μ := cpu.writeSl (rt code) (cpu.ul (rs code) + imm32 code)

def DADDIU : Cpu μ := cpu.writeUd (rt code) (cpu.ud (rs code) + imm64 code)

def ANDI : Cpu μ := cpu.writeUd (rt code) (cpu.ud (rs code) &&& immU code)

def ORI : Cpu μ := cpu.writeUd (rt code) (cpu.ud (rs code) ||| immU code)

def XORI : Cpu μ := cpu.writeUd (rt code) (cpu.ud (rs code) ^^^ immU code)

def SLTI : Cpu μ := cpu.writeUd (rt code) (flag ((cpu.ud (rs code)).slt (imm64 code)))

def SLTIU : Cpu μ := cpu.writeUd (rt code) (flag ((cpu.ud (rs code)).ult (imm64 code)))

def LUI : Cpu μ := cpu.writeSl (rt code) (code <<< 16)

def ADDU : Cpu μ := cpu.writeSl (rd code) (cpu.ul (rs code) + cpu.ul (rt code))

def SUBU : Cpu μ := cpu.writeSl (rd code) (cpu.ul (rs code) - cpu.ul (rt code))

def DADDU : Cpu μ := cpu.writeUd (rd code) (cpu.ud (rs code) + cpu.ud (rt code))

def DSUBU : Cpu μ := cpu.writeUd (rd code) (cpu.ud (rs code) - cpu.ud (rt code))

def AND : Cpu μ := cpu.writeUd (rd code) (cpu.ud (rs code) &&& cpu.ud (rt code))

def OR : Cpu μ := cpu.writeUd (rd code) (cpu.ud (rs code) ||| cpu.ud (rt code))

def XOR : Cpu μ := cpu.writeUd (rd code) (cpu.ud (rs code) ^^^ cpu.ud (rt code))

def NOR : Cpu μ := cpu.writeUd (rd code) (~~~(cpu.ud (rs code) ||| cpu.ud (rt code)))

def SLT : Cpu μ := cpu.writeUd (rd code) (flag ((cpu.ud (rs code)).slt (cpu.ud (rt code))))

def SLTU : Cpu μ := cpu.writeUd (rd code) (flag ((cpu.ud (rs code)).ult (cpu.ud (rt code))))

/-- The two words of a product; the high word is taken with the shift of its type. -/
def setProduct (low high : BitVec 32) : Cpu μ :=
  ((cpu.setLo (low.signExtend 64)).setHi (high.signExtend 64)).writeSl (rd code) low

def MULT : Cpu μ :=
  let res := (cpu.ul (rs code)).signExtend 64 * (cpu.ul (rt code)).signExtend 64
  setProduct code cpu (res.setWidth 32) ((res.sshiftRight 32).setWidth 32)

def MULTU : Cpu μ :=
  let res := (cpu.ul (rs code)).setWidth 64 * (cpu.ul (rt code)).setWidth 64
  setProduct code cpu (res.setWidth 32) ((res >>> 32).setWidth 32)

def MFHI : Cpu μ := cpu.writeUd (rd code) cpu.hi.lo

def MFLO : Cpu μ := cpu.writeUd (rd code) cpu.lo.lo

def MTHI : Cpu μ := cpu.setHi (cpu.ud (rs code))

def MTLO : Cpu μ := cpu.setLo (cpu.ud (rs code))

def SLL : Cpu μ := cpu.writeSl (rd code) (cpu.ul (rt code) <<< sa code)

def SRL : Cpu μ := cpu.writeSl (rd code) (cpu.ul (rt code) >>> sa code)

def SRA : Cpu μ := cpu.writeSl (rd code) ((cpu.ul (rt code)).sshiftRight (sa code))

def DSLL : Cpu μ := cpu.writeUd (rd code) (cpu.ud (rt code) <<< sa code)

def DSLL32 : Cpu μ := cpu.writeUd (rd code) (cpu.ud (rt code) <<< (sa code + 32))

def DSRL : Cpu μ := cpu.writeUd (rd code) (cpu.ud (rt code) >>> sa code)

def DSRL32 : Cpu μ := cpu.writeUd (rd code) (cpu.ud (rt code) >>> (sa code + 32))

def DSRA : Cpu μ := cpu.writeUd (rd code) ((cpu.ud (rt code)).sshiftRight (sa code))

def DSRA32 : Cpu μ := cpu.writeUd (rd code) ((cpu.ud (rt code)).sshiftRight (sa code + 32))

/-- `UL[0] & 0x1f` and `UL[0] & 0x3f`. -/
def shift32 : ℕ := (cpu.ul (rs code)).toNat % 32

def shift64 : ℕ := (cpu.ul (rs code)).toNat % 64

def SLLV : Cpu μ := cpu.writeSl (rd code) (cpu.ul (rt code) <<< shift32 code cpu)

def SRLV : Cpu μ := cpu.writeSl (rd code) (cpu.ul (rt code) >>> shift32 code cpu)

def SRAV : Cpu μ := cpu.writeSl (rd code) ((cpu.ul (rt code)).sshiftRight (shift32 code cpu))

def DSLLV : Cpu μ := cpu.writeUd (rd code) (cpu.ud (rt code) <<< shift64 code cpu)

def DSRLV : Cpu μ := cpu.writeUd (rd code) (cpu.ud (rt code) >>> shift64 code cpu)

def DSRAV : Cpu μ := cpu.writeUd (rd code) ((cpu.ud (rt code)).sshiftRight (shift64 code cpu))

def MOVZ : Cpu μ :=
  if cpu.ud (rt code) = 0 then cpu.writeUd (rd code) (cpu.ud (rs code)) else cpu

def MOVN : Cpu μ :=
  if cpu.ud (rt code) ≠ 0 then cpu.writeUd (rd code) (cpu.ud (rs code)) else cpu

def MFSA : Cpu μ := cpu.writeUd (rd code) (cpu.sa.setWidth 64)

def MTSA : Cpu μ := { cpu with sa := cpu.ul (rs code) }

def MTSAB : Cpu μ := { cpu with sa := (cpu.ul (rs code) &&& 0xf#32) ^^^ (imm32 code &&& 0xf#32) }

def MTSAH : Cpu μ :=
  { cpu with sa := ((cpu.ul (rs code) &&& 0x7#32) ^^^ (imm32 code &&& 0x7#32)) <<< 1 }

end Instructions

/-! ### Loads and stores -/

section Memory

variable (guest : GuestMemory μ) (code : BitVec 32) (cpu : Cpu μ)

/-- The address of an access. -/
def addr : BitVec 32 := cpu.ul (rs code) + imm32 code

/-- An address that is not aligned raises an error. -/
def aligned (mask : BitVec 32) (result : Cpu μ) : Option (Cpu μ) :=
  if addr code cpu &&& mask ≠ 0 then none else some result

/-- The state after an access that left the memory `memory`. -/
def Cpu.withMemory (memory : μ) : Cpu μ := { cpu with memory := memory }

def LB : Option (Cpu μ) :=
  let (temp, memory) := guest.memRead8 (addr code cpu) cpu.memory
  some ((cpu.withMemory memory).writeUd (rt code) (temp.signExtend 64))

def LBU : Option (Cpu μ) :=
  let (temp, memory) := guest.memRead8 (addr code cpu) cpu.memory
  some ((cpu.withMemory memory).writeUd (rt code) (temp.setWidth 64))

def LH : Option (Cpu μ) :=
  let (temp, memory) := guest.memRead16 (addr code cpu) cpu.memory
  aligned code cpu 1 ((cpu.withMemory memory).writeUd (rt code) (temp.signExtend 64))

def LHU : Option (Cpu μ) :=
  let (temp, memory) := guest.memRead16 (addr code cpu) cpu.memory
  aligned code cpu 1 ((cpu.withMemory memory).writeUd (rt code) (temp.setWidth 64))

def LW : Option (Cpu μ) :=
  let (temp, memory) := guest.memRead32 (addr code cpu) cpu.memory
  aligned code cpu 3 ((cpu.withMemory memory).writeUd (rt code) (temp.signExtend 64))

def LWU : Option (Cpu μ) :=
  let (temp, memory) := guest.memRead32 (addr code cpu) cpu.memory
  aligned code cpu 3 ((cpu.withMemory memory).writeUd (rt code) (temp.setWidth 64))

/-- The zero register is written like any other one. -/
def LD : Option (Cpu μ) :=
  let (temp, memory) := guest.memRead64 (addr code cpu) cpu.memory
  aligned code cpu 7 ((cpu.withMemory memory).setUd (rt code) temp)

def LQ : Option (Cpu μ) :=
  let (temp, memory) := guest.memRead128 (addr code cpu &&& ~~~0xf#32) cpu.memory
  some ((cpu.withMemory memory).writeUq (rt code) temp)

def SB : Option (Cpu μ) :=
  some (cpu.withMemory
    (guest.memWrite8 (addr code cpu) ((cpu.ud (rt code)).setWidth 8) cpu.memory))

def SH : Option (Cpu μ) :=
  aligned code cpu 1 (cpu.withMemory
    (guest.memWrite16 (addr code cpu) ((cpu.ud (rt code)).setWidth 16) cpu.memory))

def SW : Option (Cpu μ) :=
  aligned code cpu 3 (cpu.withMemory
    (guest.memWrite32 (addr code cpu) (cpu.ul (rt code)) cpu.memory))

def SD : Option (Cpu μ) :=
  aligned code cpu 7 (cpu.withMemory
    (guest.memWrite64 (addr code cpu) (cpu.ud (rt code)) cpu.memory))

def SQ : Option (Cpu μ) :=
  some (cpu.withMemory
    (guest.memWrite128 (addr code cpu &&& ~~~0xf#32) (cpu.reg (rt code)) cpu.memory))

end Memory

/-! ### The opcode tables -/

section Tables

variable (guest : GuestMemory μ) (code : BitVec 32) (cpu : Cpu μ)

/-- `tbl_Special`, without its jumps. -/
def tblSpecial : Option (Cpu μ) :=
  match code.toNat % 64 with
  | 0x00 => SLL code cpu
  | 0x02 => SRL code cpu
  | 0x03 => SRA code cpu
  | 0x04 => SLLV code cpu
  | 0x06 => SRLV code cpu
  | 0x07 => SRAV code cpu
  | 0x0a => MOVZ code cpu
  | 0x0b => MOVN code cpu
  -- SYNC
  | 0x0f => cpu
  | 0x10 => MFHI code cpu
  | 0x11 => MTHI code cpu
  | 0x12 => MFLO code cpu
  | 0x13 => MTLO code cpu
  | 0x14 => DSLLV code cpu
  | 0x16 => DSRLV code cpu
  | 0x17 => DSRAV code cpu
  | 0x18 => MULT code cpu
  | 0x19 => MULTU code cpu
  | 0x21 => ADDU code cpu
  | 0x23 => SUBU code cpu
  | 0x24 => AND code cpu
  | 0x25 => OR code cpu
  | 0x26 => XOR code cpu
  | 0x27 => NOR code cpu
  | 0x28 => MFSA code cpu
  | 0x29 => MTSA code cpu
  | 0x2a => SLT code cpu
  | 0x2b => SLTU code cpu
  | 0x2d => DADDU code cpu
  | 0x2f => DSUBU code cpu
  | 0x38 => DSLL code cpu
  | 0x3a => DSRL code cpu
  | 0x3b => DSRA code cpu
  | 0x3c => DSLL32 code cpu
  | 0x3e => DSRL32 code cpu
  | 0x3f => DSRA32 code cpu
  | _ => none

/-- `tbl_Standard`, without its branches. -/
def tblStandard : Option (Cpu μ) :=
  match code.toNat / 2 ^ 26 with
  | 0x00 => tblSpecial code cpu
  | 0x01 =>
    match rt code with
    | 0x18 => MTSAB code cpu
    | 0x19 => MTSAH code cpu
    | _ => none
  | 0x08 => ADDI code cpu
  | 0x09 => ADDIU code cpu
  | 0x0a => SLTI code cpu
  | 0x0b => SLTIU code cpu
  | 0x0c => ANDI code cpu
  | 0x0d => ORI code cpu
  | 0x0e => XORI code cpu
  | 0x0f => LUI code cpu
  | 0x19 => DADDIU code cpu
  | 0x1e => LQ guest code cpu
  | 0x1f => SQ guest code cpu
  | 0x20 => LB guest code cpu
  | 0x21 => LH guest code cpu
  | 0x23 => LW guest code cpu
  | 0x24 => LBU guest code cpu
  | 0x25 => LHU guest code cpu
  | 0x27 => LWU guest code cpu
  | 0x28 => SB guest code cpu
  | 0x29 => SH guest code cpu
  | 0x2b => SW guest code cpu
  -- PREF
  | 0x33 => cpu
  | 0x37 => LD guest code cpu
  | 0x3f => SD guest code cpu
  | _ => none

end Tables

/-! ### Steps -/

section Steps

variable (guest : GuestMemory μ) (fetch : BitVec 32 → Option (BitVec 32))

/-- `execI` on an instruction that is no branch. -/
def execI (cpu : Cpu μ) : Option (Cpu μ) :=
  (fetch cpu.pc).bind fun code => tblStandard guest code { cpu with pc := cpu.pc + 4 }

/-- `doBranch`: the delay slot, then the target. -/
def doBranch (target : BitVec 32) (cpu : Cpu μ) : Option (Cpu μ) :=
  (execI guest fetch cpu).map fun cpu => { cpu with pc := target }

/-- `_JumpTarget_`, with `pc` at the delay slot. -/
def jumpTarget (code : BitVec 32) (cpu : Cpu μ) : BitVec 32 :=
  (code &&& 0x03ffffff#32) <<< 2 + (cpu.pc &&& 0xf0000000#32)

/-- `_BranchTarget_`, with `pc` at the delay slot. -/
def branchTarget (code : BitVec 32) (cpu : Cpu μ) : BitVec 32 := imm32 code * 4 + cpu.pc

/-- A branch: its delay slot is skipped when it is likely and not taken. -/
def branch (code : BitVec 32) (taken likely : Bool) (cpu : Cpu μ) : Option (Cpu μ) :=
  if taken then doBranch guest fetch (branchTarget code cpu) cpu
  else if likely then some { cpu with pc := cpu.pc + 4 }
  else execI guest fetch cpu

/-- `tbl_RegImm`; a linking branch writes its link before it tests its register. -/
def tblRegImm (code : BitVec 32) (cpu : Cpu μ) : Option (Cpu μ) :=
  let linked := cpu.setLink 31
  match rt code with
  | 0x00 => branch guest fetch code ((cpu.ud (rs code)).slt 0) false cpu
  | 0x01 => branch guest fetch code (BitVec.sle 0 (cpu.ud (rs code))) false cpu
  | 0x02 => branch guest fetch code ((cpu.ud (rs code)).slt 0) true cpu
  | 0x03 => branch guest fetch code (BitVec.sle 0 (cpu.ud (rs code))) true cpu
  | 0x10 => branch guest fetch code ((linked.ud (rs code)).slt 0) false linked
  | 0x11 => branch guest fetch code (BitVec.sle 0 (linked.ud (rs code))) false linked
  | 0x12 => branch guest fetch code ((linked.ud (rs code)).slt 0) true linked
  | 0x13 => branch guest fetch code (BitVec.sle 0 (linked.ud (rs code))) true linked
  | _ => tblStandard guest code cpu

/-- JR and JALR. -/
def tblJump (code : BitVec 32) (cpu : Cpu μ) : Option (Cpu μ) :=
  match code.toNat % 64 with
  | 0x08 => doBranch guest fetch (cpu.ul (rs code)) cpu
  | 0x09 =>
    doBranch guest fetch (cpu.ul (rs code)) (if rd code = 0 then cpu else cpu.setLink (rd code))
  | _ => tblStandard guest code cpu

/-- One instruction, or one branch and its delay slot. -/
def unit (cpu : Cpu μ) : Option (Cpu μ) :=
  (fetch cpu.pc).bind fun code =>
    let cpu := { cpu with pc := cpu.pc + 4 }
    let left := cpu.ud (rs code)
    let right := cpu.ud (rt code)
    match code.toNat / 2 ^ 26 with
    | 0x00 => tblJump guest fetch code cpu
    | 0x01 => tblRegImm guest fetch code cpu
    | 0x02 => doBranch guest fetch (jumpTarget code cpu) cpu
    | 0x03 => doBranch guest fetch (jumpTarget code cpu) (cpu.setLink 31)
    | 0x04 => branch guest fetch code (left == right) false cpu
    | 0x05 => branch guest fetch code (left != right) false cpu
    | 0x06 => branch guest fetch code (left.sle 0) false cpu
    | 0x07 => branch guest fetch code (BitVec.slt 0 left) false cpu
    | 0x14 => branch guest fetch code (left == right) true cpu
    | 0x15 => branch guest fetch code (left != right) true cpu
    | 0x16 => branch guest fetch code (left.sle 0) true cpu
    | 0x17 => branch guest fetch code (BitVec.slt 0 left) true cpu
    | _ => tblStandard guest code cpu

/-- A number of steps. -/
def units : ℕ → Cpu μ → Option (Cpu μ)
  | 0, cpu => some cpu
  | n + 1, cpu => (unit guest fetch cpu).bind (units n)

end Steps

end VitaSX2.R5900
