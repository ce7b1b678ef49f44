import RiscvVp.Rv32.Action

/-!
# Floating-point instructions

Both builds share these bodies.  Every one of them requires its extension and
an enabled floating-point unit before it touches anything.  The shapes below
are parameterised by the format, single or double, which fixes the extension
and how a register is read and written.
-/

namespace RiscvVp

namespace Rv32

namespace Exec

open Body Fp

variable (cfg : Config) (instr : Instruction)

/-! ## Helpers of the source -/

def fpRequireNotOff : Body Unit := do
  let mstatus ← csr .mstatus
  if Csr.Mstatus.fs.get mstatus = 0b00 then raiseIllegal instr

def fpPrepareInstr : Body Unit := do
  let flags : Flags ← act .exceptionFlags
  if flags ≠ 0 then fatal .softfloatFlags
  fpRequireNotOff instr

def fpSetDirty : Body Unit := act .fpSetDirty

def fpUpdateExceptionFlags : Body Unit := act .fpUpdateExceptionFlags

def fpFinishInstr : Body Unit := do
  fpSetDirty
  fpUpdateExceptionFlags

def fpSetupRm : Body Unit := do
  let fcsr ← csr .fcsr
  let rm := if instr.frm = frmDyn then Csr.Fcsr.frm.get fcsr else instr.frm
  if rm ≥ frmRmm then raiseIllegal instr
  act (.setRoundingMode rm)

/-- The library adds the flags of an operation to those already raised. -/
def raising {α : Type} (result : α × Flags) : Body α := do
  act (.raiseFlags result.2)
  pure result.1

def roundingMode : Body RoundingMode := act .roundingMode

def fpReg (regIdx : BitVec 5) : Body (BitVec 64) := act (.fpReg regIdx)

def setFpReg (regIdx : BitVec 5) (value : BitVec 64) : Body Unit :=
  act (.setFpReg regIdx value)

/-! ## Formats -/

/-- A register format: its width, its extension and its boxing. -/
structure Format where
  width : Nat
  extension : BitVec 32
  unbox : BitVec 64 → BitVec width
  box : BitVec width → BitVec 64

abbrev single : Format := ⟨32, Csr.Misa.f, f32, boxF32⟩

abbrev double : Format := ⟨64, Csr.Misa.d, id, id⟩

variable (format : Format)

def readFloat (regIdx : BitVec 5) : Body (BitVec format.width) := do
  let register ← fpReg regIdx
  pure (format.unbox register)

def writeFloat (regIdx : BitVec 5) (value : BitVec format.width) :
    Body Unit :=
  setFpReg regIdx (format.box value)

/-! ## Shapes -/

/-- An operation that rounds, between the two halves every one shares. -/
def rounded (extension : BitVec 32) (operate : RoundingMode → Body Unit) :
    Body Unit := do
  requireIsa instr extension
  fpPrepareInstr instr
  fpSetupRm instr
  let rm ← roundingMode
  operate rm
  fpFinishInstr

def floatBinary
    (f : RoundingMode → BitVec format.width → BitVec format.width →
      BitVec format.width × Flags) : Body Unit :=
  rounded instr format.extension fun rm => do
    let a ← readFloat format instr.rs1
    let b ← readFloat format instr.rs2
    let result ← raising (f rm a b)
    writeFloat format instr.rd result

def floatUnary
    (f : RoundingMode → BitVec format.width →
      BitVec format.width × Flags) : Body Unit :=
  rounded instr format.extension fun rm => do
    let a ← readFloat format instr.rs1
    let result ← raising (f rm a)
    writeFloat format instr.rd result

/-- A fused operation; the signs of the first and last operand vary. -/
def floatFused
    (f : RoundingMode → BitVec format.width → BitVec format.width →
      BitVec format.width → BitVec format.width × Flags) : Body Unit :=
  rounded instr format.extension fun rm => do
    let a ← readFloat format instr.rs1
    let b ← readFloat format instr.rs2
    let c ← readFloat format instr.rs3
    let result ← raising (f rm a b c)
    writeFloat format instr.rd result

/-- A conversion from a float to an integer register. -/
def floatToInteger
    (f : RoundingMode → BitVec format.width → BitVec 32 × Flags) :
    Body Unit :=
  rounded instr format.extension fun rm => do
    let a ← readFloat format instr.rs1
    let result ← raising (f rm a)
    setReg instr.rd result

/-- A conversion from an integer register to a float. -/
def integerToFloat
    (f : RoundingMode → BitVec 32 → BitVec format.width × Flags) :
    Body Unit :=
  rounded instr format.extension fun rm => do
    let a ← reg instr.rs1
    let result ← raising (f rm a)
    writeFloat format instr.rd result

/-- `FMIN` and `FMAX`.  The equality test runs only when the first one
fails. -/
def floatSelect (lessQuiet equal : BitVec format.width →
      BitVec format.width → Bool × Flags)
    (isNegative isNaN : BitVec format.width → Bool)
    (defaultNaN : BitVec format.width) (greatest : Bool) : Body Unit := do
  requireIsa instr format.extension
  fpPrepareInstr instr
  let first ← readFloat format instr.rs1
  let second ← readFloat format instr.rs2
  let a := if greatest then second else first
  let b := if greatest then first else second
  let less ← raising (lessQuiet a b)
  let chosen : Bool ←
    if less then pure true
    else do
      let same ← raising (equal a b)
      pure (same && isNegative a)
  if isNaN first && isNaN second then writeFloat format instr.rd defaultNaN
  else if chosen then writeFloat format instr.rd first
  else writeFloat format instr.rd second
  fpFinishInstr

/-- Sign injection: the operands' words are combined, nothing is rounded. -/
def signInject
    (f : BitVec format.width → BitVec format.width → BitVec format.width) :
    Body Unit := do
  requireIsa instr format.extension
  fpPrepareInstr instr
  let f1 ← readFloat format instr.rs1
  let f2 ← readFloat format instr.rs2
  writeFloat format instr.rd (f f1 f2)
  fpSetDirty

/-- A comparison, whose result goes to an integer register. -/
def floatCompare
    (f : BitVec format.width → BitVec format.width → Bool × Flags) :
    Body Unit := do
  requireIsa instr format.extension
  fpPrepareInstr instr
  let a ← readFloat format instr.rs1
  let b ← readFloat format instr.rs2
  let result ← raising (f a b)
  setReg instr.rd (if result then 1 else 0)
  fpUpdateExceptionFlags

def floatClassify (f : BitVec format.width → BitVec 32) : Body Unit := do
  requireIsa instr format.extension
  fpPrepareInstr instr
  let a ← readFloat format instr.rs1
  setReg instr.rd (f a)

/-! ## Loads and stores -/

def flw : Body Unit := do
  requireIsa instr Csr.Misa.f
  let base ← reg instr.rs1
  let addr := base + instr.iImm
  trapCheckAddrAlignment 4 true addr
  let value : BitVec 32 ← act (.loadData 4 (addr.setWidth 64))
  writeFloat single instr.rd value

def fsw : Body Unit := do
  requireIsa instr Csr.Misa.f
  let base ← reg instr.rs1
  let addr := base + instr.sImm
  trapCheckAddrAlignment 4 false addr
  let register ← fpReg instr.rs2
  act (.storeData 4 (addr.setWidth 64) (u32 register))

def fld : Body Unit := do
  requireIsa instr Csr.Misa.d
  let base ← reg instr.rs1
  let addr := base + instr.iImm
  trapCheckAddrAlignment 8 true addr
  let value : BitVec 64 ← act (.loadData 8 (addr.setWidth 64))
  writeFloat double instr.rd value

def fsd : Body Unit := do
  requireIsa instr Csr.Misa.d
  let base ← reg instr.rs1
  let addr := base + instr.sImm
  trapCheckAddrAlignment 8 false addr
  let register ← fpReg instr.rs2
  act (.storeData 8 (addr.setWidth 64) register)

/-! ## Single precision -/

def faddS : Body Unit := floatBinary instr single cfg.softfloat.f32Add

def fsubS : Body Unit := floatBinary instr single cfg.softfloat.f32Sub

def fmulS : Body Unit := floatBinary instr single cfg.softfloat.f32Mul

def fdivS : Body Unit := floatBinary instr single cfg.softfloat.f32Div

def fsqrtS : Body Unit := floatUnary instr single cfg.softfloat.f32Sqrt

def fminS : Body Unit :=
  floatSelect instr single cfg.softfloat.f32LtQuiet cfg.softfloat.f32Eq
    f32IsNegative f32IsNaN f32DefaultNaN false

def fmaxS : Body Unit :=
  floatSelect instr single cfg.softfloat.f32LtQuiet cfg.softfloat.f32Eq
    f32IsNegative f32IsNaN f32DefaultNaN true

def fmaddS : Body Unit := floatFused instr single cfg.softfloat.f32MulAdd

def fmsubS : Body Unit :=
  floatFused instr single fun rm a b c =>
    cfg.softfloat.f32MulAdd rm a b (f32Neg c)

def fnmaddS : Body Unit :=
  floatFused instr single fun rm a b c =>
    cfg.softfloat.f32MulAdd rm (f32Neg a) b (f32Neg c)

def fnmsubS : Body Unit :=
  floatFused instr single fun rm a b c =>
    cfg.softfloat.f32MulAdd rm (f32Neg a) b c

def fcvtWS : Body Unit := floatToInteger instr single cfg.softfloat.f32ToI32

def fcvtWuS : Body Unit :=
  floatToInteger instr single cfg.softfloat.f32ToUi32

def fcvtSW : Body Unit := integerToFloat instr single cfg.softfloat.i32ToF32

def fcvtSWu : Body Unit :=
  integerToFloat instr single cfg.softfloat.ui32ToF32

def fsgnjS : Body Unit :=
  signInject instr single fun f1 f2 =>
    (f1 &&& ~~~f32SignBit) ||| (f2 &&& f32SignBit)

def fsgnjnS : Body Unit :=
  signInject instr single fun f1 f2 =>
    (f1 &&& ~~~f32SignBit) ||| (~~~f2 &&& f32SignBit)

def fsgnjxS : Body Unit :=
  signInject instr single fun f1 f2 => f1 ^^^ (f2 &&& f32SignBit)

def fmvWX : Body Unit := do
  requireIsa instr Csr.Misa.f
  fpPrepareInstr instr
  let a ← reg instr.rs1
  writeFloat single instr.rd a
  fpSetDirty

def fmvXW : Body Unit := do
  requireIsa instr Csr.Misa.f
  fpPrepareInstr instr
  let register ← fpReg instr.rs1
  setReg instr.rd (u32 register)

def feqS : Body Unit := floatCompare instr single cfg.softfloat.f32Eq

def fltS : Body Unit := floatCompare instr single cfg.softfloat.f32Lt

def fleS : Body Unit := floatCompare instr single cfg.softfloat.f32Le

def fclassS : Body Unit :=
  floatClassify instr single cfg.softfloat.f32Classify

/-! ## Double precision -/

def faddD : Body Unit := floatBinary instr double cfg.softfloat.f64Add

def fsubD : Body Unit := floatBinary instr double cfg.softfloat.f64Sub

def fmulD : Body Unit := floatBinary instr double cfg.softfloat.f64Mul

def fdivD : Body Unit := floatBinary instr double cfg.softfloat.f64Div

def fsqrtD : Body Unit := floatUnary instr double cfg.softfloat.f64Sqrt

def fminD : Body Unit :=
  floatSelect instr double cfg.softfloat.f64LtQuiet cfg.softfloat.f64Eq
    f64IsNegative f64IsNaN f64DefaultNaN false

def fmaxD : Body Unit :=
  floatSelect instr double cfg.softfloat.f64LtQuiet cfg.softfloat.f64Eq
    f64IsNegative f64IsNaN f64DefaultNaN true

def fmaddD : Body Unit := floatFused instr double cfg.softfloat.f64MulAdd

def fmsubD : Body Unit :=
  floatFused instr double fun rm a b c =>
    cfg.softfloat.f64MulAdd rm a b (f64Neg c)

def fnmaddD : Body Unit :=
  floatFused instr double fun rm a b c =>
    cfg.softfloat.f64MulAdd rm (f64Neg a) b (f64Neg c)

def fnmsubD : Body Unit :=
  floatFused instr double fun rm a b c =>
    cfg.softfloat.f64MulAdd rm (f64Neg a) b c

def fsgnjD : Body Unit :=
  signInject instr double fun f1 f2 =>
    (f1 &&& ~~~f64SignBit) ||| (f2 &&& f64SignBit)

def fsgnjnD : Body Unit :=
  signInject instr double fun f1 f2 =>
    (f1 &&& ~~~f64SignBit) ||| (~~~f2 &&& f64SignBit)

def fsgnjxD : Body Unit :=
  signInject instr double fun f1 f2 => f1 ^^^ (f2 &&& f64SignBit)

/-- The operand is a double and the result a single. -/
def fcvtSD : Body Unit :=
  rounded instr Csr.Misa.d fun rm => do
    let a ← readFloat double instr.rs1
    let result ← raising (cfg.softfloat.f64ToF32 rm a)
    writeFloat single instr.rd result

def fcvtDS : Body Unit :=
  rounded instr Csr.Misa.d fun rm => do
    let a ← readFloat single instr.rs1
    let result ← raising (cfg.softfloat.f32ToF64 rm a)
    writeFloat double instr.rd result

def feqD : Body Unit := floatCompare instr double cfg.softfloat.f64Eq

def fltD : Body Unit := floatCompare instr double cfg.softfloat.f64Lt

def fleD : Body Unit := floatCompare instr double cfg.softfloat.f64Le

def fclassD : Body Unit :=
  floatClassify instr double cfg.softfloat.f64Classify

def fcvtWD : Body Unit := floatToInteger instr double cfg.softfloat.f64ToI32

def fcvtWuD : Body Unit :=
  floatToInteger instr double cfg.softfloat.f64ToUi32

def fcvtDW : Body Unit := integerToFloat instr double cfg.softfloat.i32ToF64

def fcvtDWu : Body Unit :=
  integerToFloat instr double cfg.softfloat.ui32ToF64

end Exec

end Rv32

end RiscvVp
