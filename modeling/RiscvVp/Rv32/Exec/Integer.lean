import RiscvVp.Bits.Division
import RiscvVp.Rv32.Action

/-!
# Integer and control transfer instructions

Most of these opcodes are a function of one or two registers, written out
twice in the source: through the wrappers of the timing build and on the
register file directly.  The three shapes are definitions of their own and
every opcode is one of them at its own function.
-/

namespace RiscvVp

namespace Rv32

namespace Exec

open Bits Body

variable (cfg : Config) (instr : Instruction)

/-! ## Shapes -/

/-- `rd = f(rs1)`, where `f` also knows the instruction. -/
def unary (f : BitVec 32 → BitVec 32) : Body Unit :=
  if cfg.pipelineTiming then do
    let a ← read instr.rs1
    write instr.rd (f a)
  else do
    let a ← reg instr.rs1
    setReg instr.rd (f a)

/-- `rd = f(rs1, rs2)` -/
def binary (f : BitVec 32 → BitVec 32 → BitVec 32) : Body Unit :=
  if cfg.pipelineTiming then do
    let a ← read instr.rs1
    let b ← read instr.rs2
    write instr.rd (f a b)
  else do
    let a ← reg instr.rs1
    let b ← reg instr.rs2
    setReg instr.rd (f a b)

/-- The result of a comparison. -/
def flag (condition : Bool) : BitVec 32 := if condition then 1 else 0

/-- A branch, taken when the condition holds of `rs1` and `rs2`. -/
def branch (condition : BitVec 32 → BitVec 32 → Bool) : Body Unit :=
  if cfg.pipelineTiming then do
    let a ← read instr.rs1
    let b ← read instr.rs2
    if condition a b then do
      let lastPc ← lastPc
      setPc (lastPc + instr.bImm)
      trapCheckPcAlignment
  else do
    let a ← reg instr.rs1
    let b ← reg instr.rs2
    if condition a b then do
      let lastPc ← lastPc
      setPc (lastPc + instr.bImm)
      trapCheckPcAlignment

/-! ## Register and immediate -/

def addi : Body Unit := unary cfg instr fun a => a + instr.iImm

def slti : Body Unit := unary cfg instr fun a => flag (a.slt instr.iImm)

def sltiu : Body Unit := unary cfg instr fun a => flag (a.ult instr.iImm)

def xori : Body Unit := unary cfg instr fun a => a ^^^ instr.iImm

def ori : Body Unit := unary cfg instr fun a => a ||| instr.iImm

def andi : Body Unit := unary cfg instr fun a => a &&& instr.iImm

def slli : Body Unit := unary cfg instr fun a => a <<< instr.shamt.toNat

def srli : Body Unit := unary cfg instr fun a => a >>> instr.shamt.toNat

def srai : Body Unit :=
  unary cfg instr fun a => a.sshiftRight instr.shamt.toNat

/-! ## Two registers -/

def add : Body Unit := binary cfg instr fun a b => a + b

def sub : Body Unit := binary cfg instr fun a b => a - b

def sll : Body Unit := binary cfg instr fun a b => a <<< shamtOf b

def slt : Body Unit := binary cfg instr fun a b => flag (a.slt b)

def sltu : Body Unit := binary cfg instr fun a b => flag (a.ult b)

def srl : Body Unit := binary cfg instr fun a b => a >>> shamtOf b

def sra : Body Unit := binary cfg instr fun a b => a.sshiftRight (shamtOf b)

def xor : Body Unit := binary cfg instr fun a b => a ^^^ b

def or : Body Unit := binary cfg instr fun a b => a ||| b

def and : Body Unit := binary cfg instr fun a b => a &&& b

/-! ## Upper immediates and jumps -/

def lui : Body Unit :=
  if cfg.pipelineTiming then write instr.rd instr.uImm
  else setReg instr.rd instr.uImm

def auipc : Body Unit := do
  let lastPc ← lastPc
  if cfg.pipelineTiming then write instr.rd (lastPc + instr.uImm)
  else setReg instr.rd (lastPc + instr.uImm)

def jal : Body Unit := do
  let link ← pc
  let lastPc ← lastPc
  setPc (lastPc + instr.jImm)
  trapCheckPcAlignment
  if cfg.pipelineTiming then write instr.rd link else setReg instr.rd link

/-- Both builds read `rs1` without waiting for it. -/
def jalr : Body Unit := do
  let link ← pc
  let a ← reg instr.rs1
  setPc ((a + instr.iImm) &&& ~~~1)
  trapCheckPcAlignment
  if cfg.pipelineTiming then write instr.rd link else setReg instr.rd link

def beq : Body Unit := branch cfg instr fun a b => a == b

def bne : Body Unit := branch cfg instr fun a b => a != b

def blt : Body Unit := branch cfg instr fun a b => a.slt b

def bge : Body Unit := branch cfg instr fun a b => !a.slt b

def bltu : Body Unit := branch cfg instr fun a b => a.ult b

def bgeu : Body Unit := branch cfg instr fun a b => !a.ult b

/-! ## Multiplication and division -/

/-- The product of the two builds; the timing build reads the operands before
it computes and occupies the unit afterwards. -/
def multiply (f : BitVec 32 → BitVec 32 → BitVec 32) : Body Unit :=
  if cfg.pipelineTiming then do
    requireIsa instr Csr.Misa.m
    let a ← read instr.rs1
    let b ← read instr.rs2
    write instr.rd (f a b)
    act (.pipeline (.doMult instr.rd))
  else do
    requireIsa instr Csr.Misa.m
    let a ← reg instr.rs1
    let b ← reg instr.rs2
    setReg instr.rd (f a b)

/-- The high word of a 64-bit product. -/
def highWord (product : BitVec 64) : BitVec 32 :=
  ((product &&& 0xFFFFFFFF00000000) >>> 32).setWidth 32

def mul : Body Unit :=
  multiply cfg instr fun a b =>
    ((a.signExtend 64 * b.signExtend 64) &&& 0xFFFFFFFF).setWidth 32

def mulh : Body Unit :=
  multiply cfg instr fun a b => highWord (a.signExtend 64 * b.signExtend 64)

def mulhu : Body Unit :=
  multiply cfg instr fun a b => highWord (a.setWidth 64 * b.setWidth 64)

/-- Here the timing build reads both registers once more, without waiting. -/
def mulhsu : Body Unit :=
  if cfg.pipelineTiming then do
    requireIsa instr Csr.Misa.m
    let _ ← read instr.rs1
    let _ ← read instr.rs2
    let a ← reg instr.rs1
    let b ← reg instr.rs2
    write instr.rd (highWord (a.signExtend 64 * b.setWidth 64))
    act (.pipeline (.doMult instr.rd))
  else do
    requireIsa instr Csr.Misa.m
    let a ← reg instr.rs1
    let b ← reg instr.rs2
    setReg instr.rd (highWord (a.signExtend 64 * b.setWidth 64))

/-- The quotient or remainder of the two builds. -/
def divide (f : BitVec 32 → BitVec 32 → Option (BitVec 32)) : Body Unit :=
  if cfg.pipelineTiming then do
    requireIsa instr Csr.Misa.m
    let a ← read instr.rs1
    let b ← read instr.rs2
    let value ← divided (f a b)
    write instr.rd value
    act (.pipeline (.doDiv instr.rd))
  else do
    requireIsa instr Csr.Misa.m
    let a ← reg instr.rs1
    let b ← reg instr.rs2
    let value ← divided (f a b)
    setReg instr.rd value

/-- `REG_MIN` -/
def regMin : BitVec 32 := 0x80000000

def div : Body Unit :=
  divide cfg instr fun a b =>
    if b = 0 then some (-1) else if a = regMin ∧ b = -1 then some a
    else hostDiv a b

def divu : Body Unit :=
  divide cfg instr fun a b => if b = 0 then some (-1) else hostDivu a b

def rem : Body Unit :=
  divide cfg instr fun a b =>
    if b = 0 then some a else if a = regMin ∧ b = -1 then some 0
    else hostRem a b

def remu : Body Unit :=
  divide cfg instr fun a b => if b = 0 then some a else hostRemu a b

/-! ### The host's divisions are defined -/

theorem divide_congr {f g : BitVec 32 → BitVec 32 → Option (BitVec 32)}
    (same : ∀ a b, f a b = g a b) :
    divide cfg instr f = divide cfg instr g :=
  congrArg (divide cfg instr) (funext fun a => funext (same a))

theorem div_eq :
    div cfg instr =
      divide cfg instr fun a b => some (signedQuotient a b) :=
  divide_congr cfg instr guarded_hostDiv

theorem divu_eq :
    divu cfg instr =
      divide cfg instr fun a b => some (unsignedQuotient a b) :=
  divide_congr cfg instr guarded_hostDivu

theorem rem_eq :
    rem cfg instr =
      divide cfg instr fun a b => some (signedRemainder a b) :=
  divide_congr cfg instr guarded_hostRem

theorem remu_eq :
    remu cfg instr =
      divide cfg instr fun a b => some (unsignedRemainder a b) :=
  divide_congr cfg instr guarded_hostRemu

end Exec

end Rv32

end RiscvVp
