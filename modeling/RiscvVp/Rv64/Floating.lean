import RiscvVp.Rv32.Exec.Floating
import RiscvVp.Rv64.Memory

/-!
# Minima and maxima of the 64-bit core

The 64-bit core shares the floating-point registers and the arithmetic with
the 32-bit one.  Its bodies do not require an extension.  The state is what
they use of the core.
-/

namespace RiscvVp

namespace Rv64

open Bits Interaction
open Rv32 (Reply SoftFloat)
open Rv32.Exec (Format single double)
open Rv32.Fp

namespace Mstatus

def fs : BitField 64 := ⟨13, 2, by decide⟩

def sd : BitField 64 := ⟨63, 1, by decide⟩

end Mstatus

namespace Fcsr

abbrev fflags : BitField 64 := ⟨0, 5, by decide⟩

end Fcsr

structure FpHart where
  fpRegs : BitVec 5 → BitVec 64
  mstatus : BitVec 64
  fcsr : BitVec 64
  softfloatExceptionFlags : Flags

namespace FpHart

def setFpReg (hart : FpHart) (regIdx : BitVec 5) (value : BitVec 64) :
    FpHart :=
  { hart with
    fpRegs := fun r => if r = regIdx then value else hart.fpRegs r }

/-- `fp_set_dirty` -/
def fpSetDirty (hart : FpHart) : FpHart :=
  { hart with
    mstatus := Mstatus.fs.set 0b11 (Mstatus.sd.set 1 hart.mstatus) }

/-- `fp_update_exception_flags` -/
def fpUpdateExceptionFlags (hart : FpHart) : FpHart :=
  if hart.softfloatExceptionFlags ≠ 0 then
    { hart.fpSetDirty with
      fcsr := Fcsr.fflags.set
        (Fcsr.fflags.get hart.fcsr ||| hart.softfloatExceptionFlags)
        hart.fcsr
      softfloatExceptionFlags := 0 }
  else hart

@[simp]
theorem fpRegs_fpSetDirty (hart : FpHart) :
    hart.fpSetDirty.fpRegs = hart.fpRegs :=
  rfl

@[simp]
theorem fpRegs_fpUpdateExceptionFlags (hart : FpHart) :
    hart.fpUpdateExceptionFlags.fpRegs = hart.fpRegs := by
  rw [fpUpdateExceptionFlags]
  split <;> rfl

@[simp]
theorem fpRegs_setFpReg (hart : FpHart) (regIdx : BitVec 5)
    (value : BitVec 64) : (hart.setFpReg regIdx value).fpRegs regIdx = value :=
  if_pos rfl

end FpHart

abbrev FpM : Type → Type :=
  Machine Reply FpHart SimulationTrap Fatal

namespace Exec

variable (softfloat : SoftFloat) (instr : Instruction)

/-! ## Helpers of the source -/

def fpRequireNotOff : FpM Unit := do
  let mstatus ← Machine.reads FpHart.mstatus
  if Mstatus.fs.get mstatus = 0b00 then
    Machine.raise ⟨.illegalInstr, instr.setWidth 64⟩

def fpPrepareInstr : FpM Unit := do
  let flags ← Machine.reads FpHart.softfloatExceptionFlags
  Machine.assert (flags = 0) .softfloatFlags
  fpRequireNotOff instr

def fpFinishInstr : FpM Unit := do
  Machine.modifies FpHart.fpSetDirty
  Machine.modifies FpHart.fpUpdateExceptionFlags

/-- The library adds the flags of an operation to those already raised. -/
def raising {α : Type} (result : α × Flags) : FpM α := do
  Machine.modifies fun hart =>
    { hart with
      softfloatExceptionFlags := hart.softfloatExceptionFlags ||| result.2 }
  pure result.1

variable (format : Format)

def readFloat (regIdx : BitVec 5) : FpM (BitVec format.width) :=
  Machine.reads fun hart => format.unbox (hart.fpRegs regIdx)

def writeFloat (regIdx : BitVec 5) (value : BitVec format.width) : FpM Unit :=
  Machine.modifies fun hart => hart.setFpReg regIdx (format.box value)

/-! ## Bodies -/

/-- `FMIN` and `FMAX`.  The equality test runs only when the first one
fails. -/
def floatSelect (lessQuiet equal : BitVec format.width →
      BitVec format.width → Bool × Flags)
    (isNegative isNaN : BitVec format.width → Bool)
    (defaultNaN : BitVec format.width) (greatest : Bool) : FpM Unit := do
  fpPrepareInstr instr
  let first ← readFloat format instr.rs1
  let second ← readFloat format instr.rs2
  let a := if greatest then second else first
  let b := if greatest then first else second
  let less ← raising (lessQuiet a b)
  let chosen : Bool ←
    if less then pure true
    else do
      let same ← raising (equal a b)
      pure (same && isNegative a)
  if isNaN first && isNaN second then writeFloat format instr.rd defaultNaN
  else if chosen then writeFloat format instr.rd first
  else writeFloat format instr.rd second
  fpFinishInstr

def fminS : FpM Unit :=
  floatSelect instr single softfloat.f32LtQuiet softfloat.f32Eq
    f32IsNegative f32IsNaN f32DefaultNaN false

def fmaxS : FpM Unit :=
  floatSelect instr single softfloat.f32LtQuiet softfloat.f32Eq
    f32IsNegative f32IsNaN f32DefaultNaN true

def fminD : FpM Unit :=
  floatSelect instr double softfloat.f64LtQuiet softfloat.f64Eq
    f64IsNegative f64IsNaN f64DefaultNaN false

def fmaxD : FpM Unit :=
  floatSelect instr double softfloat.f64LtQuiet softfloat.f64Eq
    f64IsNegative f64IsNaN f64DefaultNaN true

end Exec

end Rv64

end RiscvVp
