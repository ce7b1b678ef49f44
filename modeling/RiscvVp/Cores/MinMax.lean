import RiscvVp.Floating.Selection
import RiscvVp.Rv32.Execute
import RiscvVp.Rv32.Transfer
import RiscvVp.Rv64.Floating

/-!
# Minima and maxima on both cores

`FMIN` and `FMAX` of both precisions and both cores have one body.  It takes
the first operand where a comparison says so and the second one otherwise,
and no comparison holds of an operand that is no number.
-/

namespace RiscvVp

namespace Cores

open Floating Interaction
open Rv32 (SoftFloat perform)
open Rv32.Exec (Format single double)
open Rv32.Fp

/-! ## The instructions -/

inductive Precision : Type
  | single
  | double
  deriving DecidableEq

inductive MinMax : Type
  | fminS
  | fmaxS
  | fminD
  | fmaxD
  deriving DecidableEq

namespace Precision

abbrev format : Precision → Format
  | .single => Rv32.Exec.single
  | .double => Rv32.Exec.double

/-- The bits of the fraction. -/
def fraction : Precision → ℕ
  | .single => 23
  | .double => 52

abbrev Word (precision : Precision) : Type := BitVec precision.format.width

def lessQuiet (softfloat : SoftFloat) :
    (precision : Precision) → precision.Word → precision.Word → Bool × Flags
  | .single => softfloat.f32LtQuiet
  | .double => softfloat.f64LtQuiet

def equal (softfloat : SoftFloat) :
    (precision : Precision) → precision.Word → precision.Word → Bool × Flags
  | .single => softfloat.f32Eq
  | .double => softfloat.f64Eq

def isNegative : (precision : Precision) → precision.Word → Bool
  | .single => f32IsNegative
  | .double => f64IsNegative

def isNaN : (precision : Precision) → precision.Word → Bool
  | .single => f32IsNaN
  | .double => f64IsNaN

def defaultNaN : (precision : Precision) → precision.Word
  | .single => f32DefaultNaN
  | .double => f64DefaultNaN

/-- The library's comparisons are those of numbers. -/
def Trusts (precision : Precision) (softfloat : SoftFloat) : Prop :=
  Compares precision.isNaN precision.fraction
    (fun a b => (precision.lessQuiet softfloat a b).1)
    (fun a b => (precision.equal softfloat a b).1)

end Precision

namespace MinMax

def precision : MinMax → Precision
  | .fminS | .fmaxS => .single
  | .fminD | .fmaxD => .double

def greatest : MinMax → Bool
  | .fminS | .fminD => false
  | .fmaxS | .fmaxD => true

def mapping : MinMax → Mapping
  | .fminS => .fminS
  | .fmaxS => .fmaxS
  | .fminD => .fminD
  | .fmaxD => .fmaxD

/-- What the instruction is for. -/
def Computes (op : MinMax) (first second result : op.precision.Word) : Prop :=
  Selects op.precision.isNaN op.precision.defaultNaN op.precision.fraction
    op.greatest first second result

end MinMax

/-! ## The cores -/

/-- A hart of either core. -/
inductive Core : Type
  | rv32 (cfg : Rv32.Config) (hart : Rv32.Hart)
  | rv64 (softfloat : SoftFloat) (hart : Rv64.FpHart)

namespace Core

def softfloat : Core → SoftFloat
  | .rv32 cfg _ => cfg.softfloat
  | .rv64 softfloat _ => softfloat

def fpReg : Core → BitVec 5 → BitVec 64
  | .rv32 _ hart => hart.fpRegs
  | .rv64 _ hart => hart.fpRegs

def operand (core : Core) (precision : Precision) (regIdx : BitVec 5) :
    precision.Word :=
  precision.format.unbox (core.fpReg regIdx)

/-- No check refuses the instruction, and no flag is left over. -/
def Enabled (precision : Precision) : Core → Prop
  | .rv32 _ hart =>
      Rv32.Csr.Misa.has (hart.csrs .misa) precision.format.extension = true ∧
        Rv32.Csr.Mstatus.fs.get (hart.csrs .mstatus) ≠ 0b00 ∧
        hart.softfloatExceptionFlags = 0
  | .rv64 _ hart =>
      Rv64.Mstatus.fs.get hart.mstatus ≠ 0b00 ∧
        hart.softfloatExceptionFlags = 0

/-- The body of the instruction on the 64-bit core. -/
def body64 (softfloat : SoftFloat) (instr : Instruction) :
    MinMax → Rv64.FpM Unit
  | .fminS => Rv64.Exec.fminS softfloat instr
  | .fmaxS => Rv64.Exec.fmaxS softfloat instr
  | .fminD => Rv64.Exec.fminD softfloat instr
  | .fmaxD => Rv64.Exec.fmaxD softfloat instr

/-- The destination register after the instruction, if it completes. -/
def result (instr : Instruction) (op : MinMax) :
    Core → Option op.precision.Word
  | .rv32 cfg hart =>
      match Machine.answering (perform cfg)
        (Rv32.execute cfg instr op.mapping) hart with
      | .ret (.done () after) =>
          some (op.precision.format.unbox (after.fpRegs instr.rd))
      | _ => none
  | .rv64 softfloat hart =>
      match body64 softfloat instr op hart with
      | .ret (.done () after) =>
          some (op.precision.format.unbox (after.fpRegs instr.rd))
      | _ => none

end Core

/-! ## What the bodies write -/

section Bodies

variable {format : Format} {instr : Instruction}
  {lessQuiet equal : BitVec format.width → BitVec format.width → Bool × Flags}
  {isNaN : BitVec format.width → Bool} {defaultNaN : BitVec format.width}
  {greatest : Bool}

/-- The body chooses an operand by the results of the comparisons. -/
abbrev chosen (lessQuiet equal : BitVec format.width →
      BitVec format.width → Bool × Flags)
    (isNaN : BitVec format.width → Bool) (defaultNaN : BitVec format.width)
    (greatest : Bool) (first second : BitVec format.width) :
    BitVec format.width :=
  selected isNaN defaultNaN (fun a b => (lessQuiet a b).1)
    (fun a b => (equal a b).1) greatest first second

/-! ### The 64-bit core -/

theorem fpPrepareInstr64 (instr : Instruction) {hart : Rv64.FpHart}
    (on : Rv64.Mstatus.fs.get hart.mstatus ≠ 0b00)
    (clear : hart.softfloatExceptionFlags = 0) :
    Rv64.Exec.fpPrepareInstr instr hart = .ret (.done () hart) := by
  have required :
      Rv64.Exec.fpRequireNotOff instr hart = .ret (.done () hart) := by
    rw [Rv64.Exec.fpRequireNotOff, Machine.bind_apply, Machine.reads_apply,
      Program.ret_bind, Machine.andThen_done, if_neg on]
    rfl
  simp [Rv64.Exec.fpPrepareInstr, clear, required]

theorem floatSelect64 {hart : Rv64.FpHart}
    (on : Rv64.Mstatus.fs.get hart.mstatus ≠ 0b00)
    (clear : hart.softfloatExceptionFlags = 0) :
    ∃ after, Rv64.Exec.floatSelect instr format lessQuiet equal BitVec.msb
        isNaN defaultNaN greatest hart = .ret (.done () after) ∧
      after.fpRegs instr.rd = format.box
        (chosen lessQuiet equal isNaN defaultNaN greatest
          (format.unbox (hart.fpRegs instr.rs1))
          (format.unbox (hart.fpRegs instr.rs2))) := by
  have prepared := fpPrepareInstr64 instr on clear
  generalize one : format.unbox (hart.fpRegs instr.rs1) = first
  generalize other : format.unbox (hart.fpRegs instr.rs2) = second
  rw [Rv64.Exec.floatSelect]
  -- the two comparisons and the two operands decide the path
  cases less : (lessQuiet (if greatest then second else first)
      (if greatest then first else second)).1 <;>
    cases same : ((equal (if greatest then second else first)
      (if greatest then first else second)).1 &&
        (if greatest then second else first).msb) <;>
    cases noNumber : (isNaN first && isNaN second) <;>
    simp [prepared, Rv64.Exec.fpFinishInstr, Rv64.Exec.raising,
      Rv64.Exec.readFloat, Rv64.Exec.writeFloat, one, other, less, same,
      noNumber, chosen, selected, comesFirst, -Bool.and_eq_true,
      -Bool.or_eq_true]

/-! ### The 32-bit core -/

theorem fpRegs_fpUpdateExceptionFlags32 (hart : Rv32.Hart) :
    hart.fpUpdateExceptionFlags.fpRegs = hart.fpRegs := by
  rw [Rv32.Hart.fpUpdateExceptionFlags]
  split <;> rfl

/-- The destination is read back after the bookkeeping. -/
theorem fpRegs_finished32 (hart : Rv32.Hart) (regIdx : BitVec 5)
    (value : BitVec 64) :
    (hart.setFpReg regIdx value).fpSetDirty.fpUpdateExceptionFlags.fpRegs
      regIdx = value := by
  rw [fpRegs_fpUpdateExceptionFlags32]
  exact if_pos rfl

theorem fpPrepareInstr32 (cfg : Rv32.Config) (instr : Instruction)
    {hart : Rv32.Hart}
    (on : Rv32.Csr.Mstatus.fs.get (hart.csrs .mstatus) ≠ 0b00)
    (clear : hart.softfloatExceptionFlags = 0) :
    Machine.answering (perform cfg) (Rv32.Exec.fpPrepareInstr instr) hart =
      .ret (.done () hart) := by
  have required : Machine.answering (perform cfg)
      (Rv32.Exec.fpRequireNotOff instr) hart = .ret (.done () hart) := by
    change Machine.answering (perform cfg)
      (if Rv32.Csr.Mstatus.fs.get (hart.csrs .mstatus) = 0b00 then
        Rv32.Body.raiseIllegal instr
      else pure ()) hart = _
    rw [if_neg on]
    rfl
  simp [Rv32.Exec.fpPrepareInstr, Rv32.Body.act, Program.ask, perform, clear,
    required]

theorem floatSelect32 (cfg : Rv32.Config) {hart : Rv32.Hart}
    (present :
      Rv32.Csr.Misa.has (hart.csrs .misa) format.extension = true)
    (on : Rv32.Csr.Mstatus.fs.get (hart.csrs .mstatus) ≠ 0b00)
    (clear : hart.softfloatExceptionFlags = 0) :
    ∃ after, Machine.answering (perform cfg)
        (Rv32.Exec.floatSelect instr format lessQuiet equal BitVec.msb isNaN
          defaultNaN greatest) hart = .ret (.done () after) ∧
      after.fpRegs instr.rd = format.box
        (chosen lessQuiet equal isNaN defaultNaN greatest
          (format.unbox (hart.fpRegs instr.rs1))
          (format.unbox (hart.fpRegs instr.rs2))) := by
  have required := Rv32.requireIsa_apply cfg hart instr present
  have prepared := fpPrepareInstr32 cfg instr on clear
  generalize one : format.unbox (hart.fpRegs instr.rs1) = first
  generalize other : format.unbox (hart.fpRegs instr.rs2) = second
  rw [Rv32.Exec.floatSelect]
  cases less : (lessQuiet (if greatest then second else first)
      (if greatest then first else second)).1 <;>
    cases same : ((equal (if greatest then second else first)
      (if greatest then first else second)).1 &&
        (if greatest then second else first).msb) <;>
    cases noNumber : (isNaN first && isNaN second) <;>
    simp [Machine.answering_bind, required, prepared,
      Rv32.Exec.fpFinishInstr, Rv32.Exec.fpSetDirty,
      Rv32.Exec.fpUpdateExceptionFlags, Rv32.Exec.raising,
      Rv32.Exec.readFloat, Rv32.Exec.fpReg, Rv32.Exec.setFpReg,
      Rv32.Exec.writeFloat, Rv32.Body.act, Program.ask, perform, one, other,
      less, same, noNumber, chosen, selected, comesFirst,
      fpRegs_finished32, -Bool.and_eq_true, -Bool.or_eq_true]

end Bodies

/-! ## Words in registers -/

theorem f32_boxF32 (word : BitVec 32) : f32 (boxF32 word) = word := by
  have low : (boxF32 word).setWidth 32 = word := by
    rw [boxF32, BitVec.setWidth_or]
    simp
  have boxed : isBoxedF32 (boxF32 word) = true := by
    have upper : word.setWidth 64 >>> 32 = 0#64 := by
      apply BitVec.eq_of_toNat_eq
      have bound := word.isLt
      simp [Nat.shiftRight_eq_div_pow]
      omega
    rw [isBoxedF32, boxF32, BitVec.ushiftRight_or_distrib, upper]
    rfl
  rw [f32, if_pos boxed, low]

theorem f32IsNegative_eq_msb : f32IsNegative = BitVec.msb := by
  funext word
  have bit : f32SignBit = BitVec.twoPow 32 31 := by decide
  rw [BitVec.msb_eq_getLsbD_last, f32IsNegative, bit, BitVec.and_twoPow]
  cases word.getLsbD 31 <;> decide

theorem f64IsNegative_eq_msb : f64IsNegative = BitVec.msb := by
  funext word
  have bit : f64SignBit = BitVec.twoPow 64 63 := by decide
  rw [BitVec.msb_eq_getLsbD_last, f64IsNegative, bit, BitVec.and_twoPow]
  cases word.getLsbD 63 <;> decide

namespace Precision

variable (precision : Precision)

theorem isNegative_eq_msb : precision.isNegative = BitVec.msb := by
  cases precision with
  | single => exact f32IsNegative_eq_msb
  | double => exact f64IsNegative_eq_msb

theorem unbox_box (word : precision.Word) :
    precision.format.unbox (precision.format.box word) = word := by
  cases precision with
  | single => exact f32_boxF32 word
  | double => rfl

end Precision

/-! ## The destination register -/

/-- The operand that the comparisons of the library make the result. -/
def MinMax.choose (op : MinMax) (softfloat : SoftFloat)
    (first second : op.precision.Word) : op.precision.Word :=
  chosen (op.precision.lessQuiet softfloat) (op.precision.equal softfloat)
    op.precision.isNaN op.precision.defaultNaN op.greatest first second

theorem body32_eq (cfg : Rv32.Config) (instr : Instruction) (op : MinMax) :
    Rv32.execute cfg instr op.mapping =
      Rv32.Exec.floatSelect instr op.precision.format
        (op.precision.lessQuiet cfg.softfloat)
        (op.precision.equal cfg.softfloat) BitVec.msb op.precision.isNaN
        op.precision.defaultNaN op.greatest := by
  rw [← op.precision.isNegative_eq_msb]
  cases op <;> rfl

theorem body64_eq (softfloat : SoftFloat) (instr : Instruction)
    (op : MinMax) :
    Core.body64 softfloat instr op =
      Rv64.Exec.floatSelect instr op.precision.format
        (op.precision.lessQuiet softfloat) (op.precision.equal softfloat)
        BitVec.msb op.precision.isNaN op.precision.defaultNaN
        op.greatest := by
  rw [← op.precision.isNegative_eq_msb]
  cases op <;> rfl

/-- An enabled instruction completes, with the operand chosen. -/
theorem result_eq (instr : Instruction) (op : MinMax) {core : Core}
    (enabled : core.Enabled op.precision) :
    core.result instr op = some
      (op.choose core.softfloat (core.operand op.precision instr.rs1)
        (core.operand op.precision instr.rs2)) := by
  cases core with
  | rv32 cfg hart =>
      obtain ⟨present, on, clear⟩ := enabled
      obtain ⟨after, done, written⟩ := floatSelect32 cfg present on clear
      rw [Core.result, body32_eq, done]
      simp only [written, Precision.unbox_box]
      rfl
  | rv64 softfloat hart =>
      obtain ⟨on, clear⟩ := enabled
      obtain ⟨after, done, written⟩ := floatSelect64 on clear
      rw [Core.result, body64_eq, done]
      simp only [written, Precision.unbox_box]
      rfl

/-- Two harts, each with what the other one has in the second register, end
with the same and right word exactly if the operands are both numbers or both
none. -/
theorem minMax_iff (op : MinMax) (core exchanged : Core)
    (instr exchangedInstr : Instruction)
    (trusted : op.precision.Trusts core.softfloat)
    (exchangedTrusted : op.precision.Trusts exchanged.softfloat)
    (enabled : core.Enabled op.precision)
    (exchangedEnabled : exchanged.Enabled op.precision)
    (first : exchanged.operand op.precision exchangedInstr.rs2 =
      core.operand op.precision instr.rs1)
    (second : exchanged.operand op.precision exchangedInstr.rs1 =
      core.operand op.precision instr.rs2) :
    (∃ result, core.result instr op = some result ∧
        exchanged.result exchangedInstr op = some result ∧
        op.Computes (core.operand op.precision instr.rs1)
          (core.operand op.precision instr.rs2) result) ↔
      op.precision.isNaN (core.operand op.precision instr.rs1) =
        op.precision.isNaN (core.operand op.precision instr.rs2) := by
  have library : op.choose exchanged.softfloat =
      op.choose core.softfloat := by
    obtain ⟨less, equal⟩ := exchangedTrusted.unique trusted
    funext a b
    simp only [MinMax.choose, chosen, less, equal]
  have specified (a b : op.precision.Word) :
      (op.Computes a b (op.choose core.softfloat a b) ∧
        op.choose core.softfloat a b = op.choose core.softfloat b a) ↔
      op.precision.isNaN a = op.precision.isNaN b :=
    selected_spec_iff trusted
  rw [result_eq instr op enabled,
    result_eq exchangedInstr op exchangedEnabled, first, second, library,
    ← specified]
  constructor
  · rintro ⟨result, chosen, same, computes⟩
    cases Option.some.inj chosen
    exact ⟨computes, (Option.some.inj same).symm⟩
  · rintro ⟨computes, same⟩
    exact ⟨_, rfl, congrArg some same.symm, computes⟩

/-! ## One operand that is no number -/

/-- A library whose comparisons are computed from the numbers. -/
def computedLibrary : SoftFloat :=
  { (default : SoftFloat) with
    f32LtQuiet := fun a b => (lessThan f32IsNaN 23 a b, 0)
    f32Eq := fun a b => (equalTo f32IsNaN 23 a b, 0)
    f64LtQuiet := fun a b => (lessThan f64IsNaN 52 a b, 0)
    f64Eq := fun a b => (equalTo f64IsNaN 52 a b, 0) }

theorem trusts_computedLibrary (precision : Precision) :
    precision.Trusts computedLibrary := by
  cases precision with
  | single => exact compares_computed f32IsNaN 23
  | double => exact compares_computed f64IsNaN 52

/-- A 64-bit hart with two words in its first registers. -/
def holding (first second : BitVec 64) : Core :=
  .rv64 computedLibrary
    { fpRegs := fun r => if r = 1 then first else if r = 2 then second else 0
      mstatus := 0x6000
      fcsr := 0
      softfloatExceptionFlags := 0 }

/-- `FMIN.S` of one and no number is no number. -/
theorem fminS_counterexample :
    ¬ ∃ result,
      (holding 0xffffffff3f800000 0xffffffff7fc00000).result 0x282081d3
          .fminS = some result ∧
        (holding 0xffffffff7fc00000 0xffffffff3f800000).result 0x282081d3
          .fminS = some result ∧
        MinMax.fminS.Computes 0x3f800000 0x7fc00000 result := by
  rintro ⟨result, ends, -, computes⟩
  have noNumber : (holding 0xffffffff3f800000 0xffffffff7fc00000).result
      0x282081d3 .fminS = some 0x7fc00000 := by
    rfl
  have one := computes.secondNaN (by decide) (by decide)
  rw [noNumber, one] at ends
  exact absurd ends (by decide)

/-- Zeros of both signs, at both operands. -/
theorem minMax_iff_zeros :
    (∃ result,
      (holding 0 0x8000000000000000).result 0x2a2081d3 .fminD =
          some result ∧
        (holding 0x8000000000000000 0).result 0x2a2081d3 .fminD =
          some result ∧
        MinMax.fminD.Computes 0 0x8000000000000000 result) ↔
      f64IsNaN 0 = f64IsNaN 0x8000000000000000 :=
  minMax_iff .fminD (holding 0 0x8000000000000000)
    (holding 0x8000000000000000 0) 0x2a2081d3 0x2a2081d3
    (trusts_computedLibrary .double) (trusts_computedLibrary .double)
    ⟨by decide, rfl⟩ ⟨by decide, rfl⟩ rfl rfl

end Cores

end RiscvVp
