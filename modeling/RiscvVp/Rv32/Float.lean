import Mathlib.Data.Nat.Notation

/-!
# Floating-point registers and arithmetic

Registers hold 64 bits and a single is boxed by ones above it.  The arithmetic
is that of the vendored software floating-point library, which is a parameter:
each operation gives a result and the exception flags it raises.  What the
core itself defines on floating-point words is defined here.
-/

namespace RiscvVp

namespace Rv32

namespace Fp

/-- `softfloat_roundingMode`, as the field of the instruction encodes it. -/
abbrev RoundingMode : Type := BitVec 3

/-- `softfloat_exceptionFlags` -/
abbrev Flags : Type := BitVec 5

def frmRmm : BitVec 3 := 0b100

def frmDyn : BitVec 3 := 0b111

def f32DefaultNaN : BitVec 32 := 0x7fc00000

def f64DefaultNaN : BitVec 64 := 0x7ff8000000000000

def f32SignBit : BitVec 32 := 1 <<< 31

def f64SignBit : BitVec 64 := 1 <<< 63

def f32IsNegative (x : BitVec 32) : Bool := x &&& f32SignBit != 0

def f64IsNegative (x : BitVec 64) : Bool := x &&& f64SignBit != 0

def f32Neg (x : BitVec 32) : BitVec 32 := x ^^^ f32SignBit

def f64Neg (x : BitVec 64) : BitVec 64 := x ^^^ f64SignBit

def f32IsNaN (x : BitVec 32) : Bool :=
  ~~~x &&& 0x7f800000 == 0 && x &&& 0x007fffff != 0

def f64IsNaN (x : BitVec 64) : Bool :=
  ~~~x &&& 0x7ff0000000000000 == 0 && x &&& 0x000fffffffffffff != 0

/-! ## Boxing -/

def isBoxedF32 (x : BitVec 64) : Bool := x >>> 32 == 0xffffffff

def boxF32 (x : BitVec 32) : BitVec 64 :=
  x.setWidth 64 ||| 0xffffffff00000000

/-- `FpRegs::f32`: a single that is not boxed reads as the default NaN. -/
def f32 (register : BitVec 64) : BitVec 32 :=
  if isBoxedF32 register then register.setWidth 32 else f32DefaultNaN

/-- `FpRegs::u32`: the raw low word. -/
def u32 (register : BitVec 64) : BitVec 32 := register.setWidth 32

end Fp

open Fp

/-- The library operations that the core calls. -/
structure SoftFloat where
  f32Add : RoundingMode → BitVec 32 → BitVec 32 → BitVec 32 × Flags
  f32Sub : RoundingMode → BitVec 32 → BitVec 32 → BitVec 32 × Flags
  f32Mul : RoundingMode → BitVec 32 → BitVec 32 → BitVec 32 × Flags
  f32Div : RoundingMode → BitVec 32 → BitVec 32 → BitVec 32 × Flags
  f32Sqrt : RoundingMode → BitVec 32 → BitVec 32 × Flags
  f32MulAdd :
    RoundingMode → BitVec 32 → BitVec 32 → BitVec 32 → BitVec 32 × Flags
  f32LtQuiet : BitVec 32 → BitVec 32 → Bool × Flags
  f32Eq : BitVec 32 → BitVec 32 → Bool × Flags
  f32Lt : BitVec 32 → BitVec 32 → Bool × Flags
  f32Le : BitVec 32 → BitVec 32 → Bool × Flags
  f32ToI32 : RoundingMode → BitVec 32 → BitVec 32 × Flags
  f32ToUi32 : RoundingMode → BitVec 32 → BitVec 32 × Flags
  i32ToF32 : RoundingMode → BitVec 32 → BitVec 32 × Flags
  ui32ToF32 : RoundingMode → BitVec 32 → BitVec 32 × Flags
  f32Classify : BitVec 32 → BitVec 32
  f64Add : RoundingMode → BitVec 64 → BitVec 64 → BitVec 64 × Flags
  f64Sub : RoundingMode → BitVec 64 → BitVec 64 → BitVec 64 × Flags
  f64Mul : RoundingMode → BitVec 64 → BitVec 64 → BitVec 64 × Flags
  f64Div : RoundingMode → BitVec 64 → BitVec 64 → BitVec 64 × Flags
  f64Sqrt : RoundingMode → BitVec 64 → BitVec 64 × Flags
  f64MulAdd :
    RoundingMode → BitVec 64 → BitVec 64 → BitVec 64 → BitVec 64 × Flags
  f64LtQuiet : BitVec 64 → BitVec 64 → Bool × Flags
  f64Eq : BitVec 64 → BitVec 64 → Bool × Flags
  f64Lt : BitVec 64 → BitVec 64 → Bool × Flags
  f64Le : BitVec 64 → BitVec 64 → Bool × Flags
  f64ToI32 : RoundingMode → BitVec 64 → BitVec 32 × Flags
  f64ToUi32 : RoundingMode → BitVec 64 → BitVec 32 × Flags
  i32ToF64 : RoundingMode → BitVec 32 → BitVec 64 × Flags
  ui32ToF64 : RoundingMode → BitVec 32 → BitVec 64 × Flags
  f64ToF32 : RoundingMode → BitVec 64 → BitVec 32 × Flags
  f32ToF64 : RoundingMode → BitVec 32 → BitVec 64 × Flags
  f64Classify : BitVec 64 → BitVec 32
  deriving Inhabited

end Rv32

end RiscvVp
