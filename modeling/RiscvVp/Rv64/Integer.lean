import RiscvVp.Bits.Division
import RiscvVp.Bits.Product
import RiscvVp.Rv64.Memory

/-!
# Multiplication and division of the 64-bit core

No case requires the M extension.  Products are taken at 128 bits; the
divisions of the host come after the operands it does not define have been
sorted out.
-/

namespace RiscvVp

namespace Rv64

namespace Exec

open Bits Interaction

variable (instr : Instruction)

/-- `regs[rd] = f(regs[rs1], regs[rs2])` -/
def multiply (f : BitVec 64 → BitVec 64 → BitVec 64) : HartM Unit := do
  let a ← Machine.reads fun hart => hart.regs instr.rs1
  let b ← Machine.reads fun hart => hart.regs instr.rs2
  Machine.modifies fun hart => hart.setReg instr.rd (f a b)

/-- The value of a division of the host. -/
def divided {α : Type} : Option α → HartM α
  | some value => pure value
  | none => Machine.abort .undefinedDivision

/-- The same, where the host may leave the value undefined. -/
def divide (f : BitVec 64 → BitVec 64 → Option (BitVec 64)) :
    HartM Unit := do
  let a ← Machine.reads fun hart => hart.regs instr.rs1
  let b ← Machine.reads fun hart => hart.regs instr.rs2
  let value ← divided (f a b)
  Machine.modifies fun hart => hart.setReg instr.rd value

/-! ## Products -/

/-- `ans >> 64` of a signed number, in a register. -/
def highWord (ans : BitVec 128) : BitVec 64 :=
  (ans.sshiftRight 64).setWidth 64

def mul : HartM Unit :=
  multiply instr fun a b =>
    (a.signExtend 128 * b.signExtend 128).setWidth 64

def mulh : HartM Unit :=
  multiply instr fun a b => highWord (a.signExtend 128 * b.signExtend 128)

def mulhu : HartM Unit :=
  multiply instr fun a b => highWord (a.setWidth 128 * b.setWidth 128)

def mulhsu : HartM Unit :=
  multiply instr fun a b => highWord (a.signExtend 128 * b.setWidth 128)

/-- The product of the host wraps. -/
def mulw : HartM Unit :=
  multiply instr fun a b => ((a * b).setWidth 32).signExtend 64

/-! ## Quotients and remainders -/

/-- `REG_MIN` -/
def regMin : BitVec 64 := 0x8000000000000000

def div : HartM Unit :=
  divide instr fun a b =>
    if b = 0 then some (-1) else if a = regMin ∧ b = -1 then some a
    else hostDiv a b

def divu : HartM Unit :=
  divide instr fun a b => if b = 0 then some (-1) else hostDivu a b

def rem : HartM Unit :=
  divide instr fun a b =>
    if b = 0 then some a else if a = regMin ∧ b = -1 then some 0
    else hostRem a b

def remu : HartM Unit :=
  divide instr fun a b => if b = 0 then some a else hostRemu a b

/-! ### Words

The operands are `int32_t`, and so are the quotients and remainders, which a
register extends by their sign. -/

/-- `REG32_MIN`, an `int64_t` -/
def reg32Min : BitVec 64 := 0xFFFFFFFF80000000

/-- `f` of the low words. -/
def divideWords (f : BitVec 32 → BitVec 32 → Option (BitVec 64)) :
    HartM Unit :=
  divide instr fun a b => f (a.setWidth 32) (b.setWidth 32)

def divw : HartM Unit :=
  divideWords instr fun a b =>
    if b = 0 then some (-1)
    else if a.signExtend 64 = reg32Min ∧ b = -1 then some (a.signExtend 64)
    else (hostDiv a b).map (BitVec.signExtend 64)

def divuw : HartM Unit :=
  divideWords instr fun a b =>
    if b = 0 then some (-1) else (hostDivu a b).map (BitVec.signExtend 64)

def remw : HartM Unit :=
  divideWords instr fun a b =>
    if b = 0 then some (a.signExtend 64)
    else if a.signExtend 64 = reg32Min ∧ b = -1 then some 0
    else (hostRem a b).map (BitVec.signExtend 64)

def remuw : HartM Unit :=
  divideWords instr fun a b =>
    if b = 0 then some (a.signExtend 64)
    else (hostRemu a b).map (BitVec.signExtend 64)

/-! ### The host's divisions are defined -/

theorem divide_congr {f g : BitVec 64 → BitVec 64 → Option (BitVec 64)}
    (same : ∀ a b, f a b = g a b) : divide instr f = divide instr g :=
  congrArg (divide instr) (funext fun a => funext (same a))

theorem div_eq :
    div instr = divide instr fun a b => some (signedQuotient a b) :=
  divide_congr instr guarded_hostDiv

theorem divu_eq :
    divu instr = divide instr fun a b => some (unsignedQuotient a b) :=
  divide_congr instr guarded_hostDivu

theorem rem_eq :
    rem instr = divide instr fun a b => some (signedRemainder a b) :=
  divide_congr instr guarded_hostRem

theorem remu_eq :
    remu instr = divide instr fun a b => some (unsignedRemainder a b) :=
  divide_congr instr guarded_hostRemu

/-- The comparison with an `int64_t` finds the least word. -/
theorem overflows_iff (a b : BitVec 32) :
    a.signExtend 64 = reg32Min ∧ b = -1 ↔ Overflows a b := by
  have least : reg32Min = (BitVec.intMin 32).signExtend 64 := by decide
  rw [least, Overflows]
  constructor
  · rintro ⟨same, minusOne⟩
    refine ⟨?_, minusOne⟩
    have words := congrArg (BitVec.setWidth 32) same
    exact (lowHalf_signExtend a).symm.trans
      (words.trans (lowHalf_signExtend _))
  · rintro ⟨rfl, minusOne⟩
    exact ⟨rfl, minusOne⟩

/-- What the words of two registers give, extended by its sign. -/
def extended (f : BitVec 32 → BitVec 32 → BitVec 32) (a b : BitVec 64) :
    BitVec 64 :=
  (f (a.setWidth 32) (b.setWidth 32)).signExtend 64

theorem divideWords_congr {f : BitVec 32 → BitVec 32 → Option (BitVec 64)}
    {g : BitVec 32 → BitVec 32 → BitVec 32}
    (same : ∀ a b, f a b = some ((g a b).signExtend 64)) :
    divideWords instr f = divide instr fun a b => some (extended g a b) :=
  divide_congr instr fun a b => same (a.setWidth 32) (b.setWidth 32)

theorem divw_eq :
    divw instr =
      divide instr fun a b => some (extended signedQuotient a b) := by
  apply divideWords_congr
  intro a b
  have word := congrArg (Option.map (BitVec.signExtend 64))
    (guarded_hostDiv a b)
  simp only [overflows_iff]
  rw [apply_ite (Option.map _), apply_ite (Option.map _)] at word
  exact word

theorem divuw_eq :
    divuw instr =
      divide instr fun a b => some (extended unsignedQuotient a b) := by
  apply divideWords_congr
  intro a b
  have word := congrArg (Option.map (BitVec.signExtend 64))
    (guarded_hostDivu a b)
  rw [apply_ite (Option.map _)] at word
  exact word

theorem remw_eq :
    remw instr =
      divide instr fun a b => some (extended signedRemainder a b) := by
  apply divideWords_congr
  intro a b
  have word := congrArg (Option.map (BitVec.signExtend 64))
    (guarded_hostRem a b)
  simp only [overflows_iff]
  rw [apply_ite (Option.map _), apply_ite (Option.map _)] at word
  exact word

theorem remuw_eq :
    remuw instr =
      divide instr fun a b => some (extended unsignedRemainder a b) := by
  apply divideWords_congr
  intro a b
  have word := congrArg (Option.map (BitVec.signExtend 64))
    (guarded_hostRemu a b)
  rw [apply_ite (Option.map _)] at word
  exact word

end Exec

end Rv64

end RiscvVp
