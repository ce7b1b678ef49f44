import Mathlib
import RiscvVp.Rv32.Shapes

/-!
# How the instruction bodies use registers

In the timing build a body goes through wrappers that wait for a register
before they use it.  `pacing` is the monitor of that: a register is used only
after the body has waited for it, unless it is one of the few that the opcode
uses directly, and a result is announced right after the wait for its register
and is not waited for.

`execute_paced` proves this for every opcode that the switch has a case for.
-/

namespace RiscvVp

namespace Rv32

open Interaction

/-- What the monitor remembers of a body. -/
structure Pace where
  /-- the registers that it has waited for -/
  waited : List (BitVec 5) := []
  /-- the one that it has just waited for -/
  ready : Option (BitVec 5) := none
  /-- it has announced its result -/
  announced : Bool := false

/-- The registers of a system call, whose number is in the first one. -/
def syscallRegisters (index : BitVec 5) : List (BitVec 5) :=
  [index, 10, 11, 12, 13]

/-- The registers that an opcode of the timing build uses without waiting. -/
def directRegisters (cfg : Config) (index : BitVec 5) (instr : Instruction) :
    Mapping → List (BitVec 5)
  | .jalr => [instr.rs1]
  | .amoswapW | .amoaddW | .amoxorW | .amoandW | .amoorW | .amominW
  | .amomaxW | .amominuW | .amomaxuW => [instr.rs1, instr.rs2, instr.rd]
  | .flw | .fld | .fsw | .fsd | .fcvtSW | .fcvtSWu | .fcvtDW | .fcvtDWu
  | .fmvWX => [instr.rs1]
  | .fcvtWS | .fcvtWuS | .fcvtWD | .fcvtWuD | .fmvXW | .feqS | .fltS | .fleS
  | .feqD | .fltD | .fleD | .fclassS | .fclassD => [instr.rd]
  | .ecall => if cfg.sys then syscallRegisters index else []
  | _ => []

namespace Pace

variable (direct : List (BitVec 5)) (index : BitVec 5)

/-- The register may be used. -/
def mayUse (pace : Pace) (regIdx : BitVec 5) : Prop :=
  regIdx ∈ pace.waited ∨ regIdx ∈ direct

/-- What a body may do. -/
def permits (pace : Pace) : Action → Prop
  | .reg regIdx => pace.mayUse direct regIdx
  | .setReg regIdx _ => pace.mayUse direct regIdx
  | .executeSyscall =>
      ∀ regIdx ∈ syscallRegisters index, pace.mayUse direct regIdx
  | .pipeline (.accessRegister _) => pace.announced = false
  | .pipeline (.doLoad _ rd _ _) => pace.ready = some rd
  | .pipeline (.doMult rd) => pace.ready = some rd
  | .pipeline (.doDiv rd) => pace.ready = some rd
  | .pipeline (.doCsr rd) => pace.ready = some rd
  | _ => True

/-- What is remembered of an action. -/
def after (pace : Pace) : Action → Pace
  | .pipeline (.accessRegister regIdx) =>
      { pace with waited := regIdx :: pace.waited, ready := some regIdx }
  | .pipeline (.reserveStore _ _) => { pace with ready := none }
  | .pipeline _ => { pace with ready := none, announced := true }
  | .setReg _ _ | .setLrScCounter _ => pace
  | _ => { pace with ready := none }

end Pace

/-- The monitor of the body of an instruction. -/
def pacing (direct : List (BitVec 5)) (index : BitVec 5) :
    Monitor Action.Answer Pace where
  requires := Pace.permits direct index
  allows _ _ _ := True
  next pace action _ := pace.after action

/-- The body is paced from its beginning to its end. -/
def Paced (cfg : Config) (index : BitVec 5) (instr : Instruction)
    (op : Mapping) (body : Body Unit) : Prop :=
  body.Under (pacing (directRegisters cfg index instr op) index) {}
    fun _ _ => True

attribute [local simp] Pace.permits Pace.after Paced

/-! ## Rules -/

section Rules

open Body

variable {α : Type} {direct : List (BitVec 5)} {index : BitVec 5} {pace : Pace}

@[simp]
theorem pacing_act (action : Action) (receive : action.Answer → α)
    (property : Pace → α → Prop) :
    (act action receive).Under (pacing direct index) pace property ↔
      pace.permits direct index action ∧
        ∀ reply, property (pace.after action) (receive reply) := by
  simp [act, Program.ask, Program.under_call, pacing]

@[simp]
theorem pacing_raiseTrap (reason : ExceptionCode) (mtval : BitVec 64)
    (property : Pace → α → Prop) :
    (raiseTrap reason mtval).Under (pacing direct index) pace
      property := by
  rw [raiseTrap, Program.under_call]
  exact ⟨trivial, fun never => nomatch never⟩

@[simp]
theorem pacing_fatal (reason : Fatal) (property : Pace → α → Prop) :
    (fatal reason).Under (pacing direct index) pace property := by
  rw [fatal, Program.under_call]
  exact ⟨trivial, fun never => nomatch never⟩

@[simp]
theorem pacing_raiseIllegal (word : Instruction)
    (property : Pace → α → Prop) :
    (raiseIllegal word).Under (pacing direct index) pace property :=
  pacing_raiseTrap _ _ property

@[simp]
theorem pacing_ite (condition : Prop) [Decidable condition]
    (first second : Body α) (property : Pace → α → Prop) :
    (if condition then first else second).Under
        (pacing direct index) pace property ↔
      (condition →
        first.Under (pacing direct index) pace property) ∧
        (¬ condition →
          second.Under (pacing direct index) pace property) := by
  by_cases holds : condition <;> simp [holds]

@[simp]
theorem pacing_read (regIdx : BitVec 5)
    (property : Pace → BitVec 32 → Prop) :
    (Body.read regIdx).Under (pacing direct index) pace property ↔
      pace.announced = false ∧ ∀ value, property
        { pace with
          waited := regIdx :: pace.waited
          ready := none } value := by
  simp [Body.read, accessRegister, reg, Program.under_bind, Pace.permits,
    Pace.after, Pace.mayUse, Action.Answer]

@[simp]
theorem pacing_write (regIdx : BitVec 5) (value : BitVec 32)
    (property : Pace → Unit → Prop) :
    (write regIdx value).Under (pacing direct index) pace property ↔
      pace.announced = false ∧ property
        { pace with
          waited := regIdx :: pace.waited
          ready := some regIdx } () := by
  simp [write, accessRegister, setReg, Program.under_bind, Pace.permits,
    Pace.after, Pace.mayUse, Action.Answer, Unique.forall_iff]

@[simp]
theorem pacing_requireIsa (word : Instruction) (extension : BitVec 32)
    (property : Pace → Unit → Prop) :
    (requireIsa word extension).Under (pacing direct index) pace
        property ↔
      ∀ misa, Csr.Misa.has misa extension = true →
        property { pace with ready := none } () := by
  simp [requireIsa, csr, Program.under_bind, Pace.permits, Pace.after]

@[simp]
theorem pacing_trapCheckAddrAlignment (alignment : Nat) (isLoad : Bool)
    (addr : BitVec 32) (property : Pace → Unit → Prop) :
    (trapCheckAddrAlignment alignment isLoad addr).Under
        (pacing direct index) pace property ↔
      (addr.toNat % alignment = 0 → property pace ()) := by
  simp [trapCheckAddrAlignment]

end Rules

/-! ## Integer instructions -/

namespace Exec

open Body Program

variable {op : Mapping} (cfg : Config) (timed : cfg.pipelineTiming = true)
  (index : BitVec 5) (instr : Instruction)

include timed

theorem unary_paced (f : BitVec 32 → BitVec 32) :
    Paced cfg index instr op (unary cfg instr f) := by
  simp [Paced, unary, timed, under_bind]

theorem binary_paced (f : BitVec 32 → BitVec 32 → BitVec 32) :
    Paced cfg index instr op (binary cfg instr f) := by
  simp [Paced, binary, timed, under_bind]

theorem branch_paced (condition : BitVec 32 → BitVec 32 → Bool) :
    Paced cfg index instr op (branch cfg instr condition) := by
  simp [Paced, branch, timed, under_bind, lastPc, setPc,
    trapCheckPcAlignment, pc, csr, Pace.permits]

theorem lui_paced : Paced cfg index instr op (lui cfg instr) := by
  simp [Paced, lui, timed]

theorem auipc_paced : Paced cfg index instr op (auipc cfg instr) := by
  simp [Paced, auipc, timed, under_bind, lastPc, Pace.permits, Pace.after]

theorem jal_paced : Paced cfg index instr op (jal cfg instr) := by
  simp [Paced, jal, timed, under_bind, pc, lastPc, setPc,
    trapCheckPcAlignment, csr, Pace.permits, Pace.after]

theorem jalr_paced : Paced cfg index instr .jalr (jalr cfg instr) := by
  simp [Paced, jalr, timed, under_bind, pc, reg, setPc,
    trapCheckPcAlignment, csr, Pace.permits, Pace.after, Pace.mayUse,
    directRegisters]

theorem multiply_paced (f : BitVec 32 → BitVec 32 → BitVec 32) :
    Paced cfg index instr op (multiply cfg instr f) := by
  simp [Paced, multiply, timed, under_bind, Pace.permits]

theorem mulhsu_paced :
    Paced cfg index instr op (mulhsu cfg instr) := by
  simp [Paced, mulhsu, timed, under_bind, reg, Pace.permits, Pace.mayUse,
    Pace.after]

theorem divide_paced (f : BitVec 32 → BitVec 32 → BitVec 32) :
    Paced cfg index instr op
      (divide cfg instr fun a b => some (f a b)) := by
  simp [Paced, divide, timed, under_bind, Pace.permits]

/-! ## Memory instructions -/

omit timed in
@[simp]
theorem pacing_checkAlignment {direct : List (BitVec 5)} {index : BitVec 5}
    {pace : Pace} (bytes : Nat) (isLoad : Bool) (addr : BitVec 32)
    (property : Pace → Unit → Prop) :
    (checkAlignment bytes isLoad addr).Under (pacing direct index) pace
        property ↔
      (bytes = 1 ∨ addr.toNat % bytes = 0 → property pace ()) := by
  by_cases single : bytes = 1 <;> simp [checkAlignment, single]

theorem store_paced (bytes : Nat) :
    Paced cfg index instr op (store cfg instr bytes) := by
  simp [Paced, store, timed, storeData, under_bind, Pace.permits]

theorem load_paced (bytes : Nat) (convert : BitVec (8 * bytes) → BitVec 32)
    (latency : Nat) (positive : 0 < latency) :
    Paced cfg index instr op
      (load cfg instr bytes
        (fun addr => loadData bytes addr >>= fun value => pure (convert value))
        latency positive) := by
  simp [Paced, load, timed, loadData, under_bind, Pace.permits, Pace.after]

theorem lrW_paced : Paced cfg index instr op (lrW cfg instr) := by
  simp [Paced, lrW, timed, atomicLoadReservedWord, under_bind, Pace.permits,
    Pace.after]

theorem scW_paced : Paced cfg index instr op (scW cfg instr) := by
  simp [Paced, scW, timed, atomicStoreConditionalWord, under_bind,
    Pace.permits, Pace.after]

omit timed in
theorem amo_paced (member : isAmo op = true)
    (operation : BitVec 32 → BitVec 32 → BitVec 32) :
    Paced cfg index instr op (amo instr operation) := by
  have direct : directRegisters cfg index instr op =
      [instr.rs1, instr.rs2, instr.rd] := by
    cases op <;> first | rfl | cases member
  simp [Paced, amo, executeAmo, under_bind, reg, setReg, Pace.permits,
    Pace.mayUse, direct]

/-! ## CSR instructions -/

theorem csrrw_paced : Paced cfg index instr op (csrrw cfg instr) := by
  simp [Paced, csrrw, timed, isInvalidCsrAccess, getCsrValue, setCsrValue,
    doCsr, under_bind, Pace.permits, Pace.after]

theorem csrModify_paced (f : BitVec 32 → BitVec 32 → BitVec 32) :
    Paced cfg index instr op (csrModify cfg instr f) := by
  simp [Paced, csrModify, timed, isInvalidCsrAccess, getCsrValue,
    setCsrValue, doCsr, under_bind, Pace.permits, Pace.after]

theorem csrrwi_paced : Paced cfg index instr op (csrrwi cfg instr) := by
  simp [Paced, csrrwi, timed, isInvalidCsrAccess, getCsrValue, setCsrValue,
    doCsr, under_bind, Pace.permits, Pace.after]

theorem csrModifyImmediate_paced (f : BitVec 32 → BitVec 32 → BitVec 32) :
    Paced cfg index instr op (csrModifyImmediate cfg instr f) := by
  simp [Paced, csrModifyImmediate, timed, isInvalidCsrAccess, getCsrValue,
    setCsrValue, doCsr, under_bind, Pace.permits, Pace.after]

/-! ## System instructions -/

section System

omit timed

theorem fence_paced : Paced cfg index instr op fence := by
  simp [Paced, fence]

theorem ecall_paced : Paced cfg index instr .ecall (ecall cfg) := by
  by_cases sys : cfg.sys <;>
    simp +contextual [Paced, ecall, sys, under_bind, prv, lastPc,
      Pace.permits, Pace.mayUse, directRegisters]

theorem ebreak_paced : Paced cfg index instr op ebreak := by
  simp [Paced, ebreak, Pace.permits]

theorem wfi_paced : Paced cfg index instr op (wfi instr) := by
  simp [Paced, wfi, mstatusIsSet, hasExtension,
    hasLocalPendingEnabledInterrupts, under_bind, prv, csr, Pace.permits]

theorem sfenceVma_paced : Paced cfg index instr op (sfenceVma instr) := by
  simp [Paced, sfenceVma, mstatusIsSet, under_bind, prv, csr, Pace.permits]

theorem uret_paced : Paced cfg index instr op (uret instr) := by
  simp [Paced, uret, hasExtension, under_bind, csr, Pace.permits]

theorem sret_paced : Paced cfg index instr op (sret instr) := by
  simp [Paced, sret, hasExtension, mstatusIsSet, under_bind, prv, csr,
    Pace.permits]

theorem mret_paced : Paced cfg index instr op mret := by
  simp [Paced, mret, Pace.permits]

theorem undef_paced : Paced cfg index instr op (raiseIllegal instr) := by
  simp [Paced]

end System

theorem custom3_paced : Paced cfg index instr op (custom3 cfg instr) := by
  unfold custom3
  split
  · simp [Paced]
  · simp [Paced, timed, under_bind]

/-! ## Floating-point instructions -/

section Floating

omit timed

variable {direct : List (BitVec 5)} {pace : Pace}

@[simp]
theorem pacing_raising {α : Type} (result : α × Fp.Flags)
    (property : Pace → α → Prop) :
    (raising result).Under (pacing direct index) pace property ↔
      property { pace with ready := none } result.1 := by
  simp [raising, under_bind, Pace.permits, Pace.after, Action.Answer]

@[simp]
theorem pacing_fpPrepareInstr (property : Pace → Unit → Prop) :
    (fpPrepareInstr instr).Under (pacing direct index) pace property ↔
      ∀ mstatus : BitVec 32, Csr.Mstatus.fs.get mstatus ≠ 0b00 →
        property { pace with ready := none } () := by
  simp [fpPrepareInstr, fpRequireNotOff, csr, under_bind, Pace.permits,
    Pace.after]

/-- An operation that rounds is paced when what it operates on is. -/
theorem rounded_paced (extension : BitVec 32)
    {operate : Fp.RoundingMode → Body Unit}
    (operates : ∀ rm, Paced cfg index instr op (operate rm)) :
    Paced cfg index instr op (rounded instr extension operate) := by
  have finishes : ∀ rm : Fp.RoundingMode,
      (operate rm).Under (pacing (directRegisters cfg index instr op) index)
        {} fun pace _ => (fpFinishInstr).Under
          (pacing (directRegisters cfg index instr op) index) pace
            fun _ _ => True := by
    intro rm
    refine (operates rm).mono fun pace _ _ => ?_
    simp [fpFinishInstr, fpSetDirty, fpUpdateExceptionFlags, under_bind,
      Pace.permits]
  simp [Paced, rounded, fpSetupRm, roundingMode, csr, under_bind,
    Pace.permits, Pace.after, finishes]

variable (format : Format)

@[simp]
theorem pacing_readFloat (regIdx : BitVec 5)
    (property : Pace → BitVec format.width → Prop) :
    (readFloat format regIdx).Under (pacing direct index) pace property ↔
      ∀ register, property { pace with ready := none }
        (format.unbox register) := by
  simp [readFloat, fpReg, under_bind, Pace.permits, Pace.after]

@[simp]
theorem pacing_writeFloat (regIdx : BitVec 5)
    (value : BitVec format.width) (property : Pace → Unit → Prop) :
    (writeFloat format regIdx value).Under (pacing direct index) pace
        property ↔
      property { pace with ready := none } () := by
  simp [writeFloat, setFpReg, Pace.permits, Pace.after, Action.Answer,
    Unique.forall_iff]

theorem floatBinary_paced
    (f : Fp.RoundingMode → BitVec format.width → BitVec format.width →
      BitVec format.width × Fp.Flags) :
    Paced cfg index instr op (floatBinary instr format f) :=
  rounded_paced cfg index instr _ fun rm => by simp [Paced, under_bind]

theorem floatUnary_paced
    (f : Fp.RoundingMode → BitVec format.width →
      BitVec format.width × Fp.Flags) :
    Paced cfg index instr op (floatUnary instr format f) :=
  rounded_paced cfg index instr _ fun rm => by simp [Paced, under_bind]

theorem floatFused_paced
    (f : Fp.RoundingMode → BitVec format.width → BitVec format.width →
      BitVec format.width → BitVec format.width × Fp.Flags) :
    Paced cfg index instr op (floatFused instr format f) :=
  rounded_paced cfg index instr _ fun rm => by simp [Paced, under_bind]

theorem floatToInteger_paced
    (direct : directRegisters cfg index instr op = [instr.rd])
    (f : Fp.RoundingMode → BitVec format.width → BitVec 32 × Fp.Flags) :
    Paced cfg index instr op (floatToInteger instr format f) :=
  rounded_paced cfg index instr _ fun rm => by
    simp [Paced, under_bind, setReg, Pace.permits, Pace.mayUse, direct]

theorem integerToFloat_paced
    (direct : directRegisters cfg index instr op = [instr.rs1])
    (f : Fp.RoundingMode → BitVec 32 → BitVec format.width × Fp.Flags) :
    Paced cfg index instr op (integerToFloat instr format f) :=
  rounded_paced cfg index instr _ fun rm => by
    simp [Paced, under_bind, reg, Pace.permits, Pace.mayUse, direct]

theorem fcvtSD_paced : Paced cfg index instr op (fcvtSD cfg instr) :=
  rounded_paced cfg index instr _ fun rm => by
    simp [Paced, readFloat, fpReg, under_bind, Pace.permits]

theorem fcvtDS_paced : Paced cfg index instr op (fcvtDS cfg instr) :=
  rounded_paced cfg index instr _ fun rm => by
    simp [Paced, readFloat, fpReg, under_bind, Pace.permits]

theorem floatSelect_paced
    (lessQuiet equal : BitVec format.width → BitVec format.width →
      Bool × Fp.Flags)
    (isNegative isNaN : BitVec format.width → Bool)
    (defaultNaN : BitVec format.width) (greatest : Bool) :
    Paced cfg index instr op
      (floatSelect instr format lessQuiet equal isNegative isNaN defaultNaN
        greatest) := by
  simp [Paced, floatSelect, fpFinishInstr, fpSetDirty,
    fpUpdateExceptionFlags, under_bind, Pace.permits]

theorem signInject_paced
    (f : BitVec format.width → BitVec format.width → BitVec format.width) :
    Paced cfg index instr op (signInject instr format f) := by
  simp [Paced, signInject, fpSetDirty, under_bind, Pace.permits]

theorem floatCompare_paced
    (direct : directRegisters cfg index instr op = [instr.rd])
    (f : BitVec format.width → BitVec format.width → Bool × Fp.Flags) :
    Paced cfg index instr op (floatCompare instr format f) := by
  simp [Paced, floatCompare, fpUpdateExceptionFlags, setReg, under_bind,
    Pace.permits, Pace.mayUse, direct]

theorem floatClassify_paced
    (direct : directRegisters cfg index instr op = [instr.rd])
    (f : BitVec format.width → BitVec 32) :
    Paced cfg index instr op (floatClassify instr format f) := by
  simp [Paced, floatClassify, setReg, under_bind, Pace.permits, Pace.mayUse,
    direct]

theorem flw_paced : Paced cfg index instr .flw (flw instr) := by
  simp [Paced, flw, reg, under_bind, Pace.permits, Pace.mayUse,
    directRegisters]

theorem fsw_paced : Paced cfg index instr .fsw (fsw instr) := by
  simp [Paced, fsw, reg, fpReg, under_bind, Pace.permits, Pace.mayUse,
    directRegisters]

theorem fld_paced : Paced cfg index instr .fld (fld instr) := by
  simp [Paced, fld, reg, under_bind, Pace.permits, Pace.mayUse,
    directRegisters]

theorem fsd_paced : Paced cfg index instr .fsd (fsd instr) := by
  simp [Paced, fsd, reg, fpReg, under_bind, Pace.permits, Pace.mayUse,
    directRegisters]

theorem fmvWX_paced : Paced cfg index instr .fmvWX (fmvWX instr) := by
  simp [Paced, fmvWX, reg, fpSetDirty, under_bind, Pace.permits,
    Pace.mayUse, directRegisters]

theorem fmvXW_paced : Paced cfg index instr .fmvXW (fmvXW instr) := by
  simp [Paced, fmvXW, setReg, fpReg, under_bind, Pace.permits, Pace.mayUse,
    directRegisters]

end Floating

end Exec

/-! ## The switch -/

section Switch

variable (cfg : Config) (index : BitVec 5) (instr : Instruction)

open Exec in
/-- Which register a floating-point instruction uses directly depends on the
opcode and not on the shape. -/
theorem executeFloat_paced : ∀ {op : Mapping}, isFloat op = true →
    Paced cfg index instr op (execute cfg instr op)
  | .flw, _ => flw_paced cfg index instr
  | .fsw, _ => fsw_paced cfg index instr
  | .fld, _ => fld_paced cfg index instr
  | .fsd, _ => fsd_paced cfg index instr
  | .fmvWX, _ => fmvWX_paced cfg index instr
  | .fmvXW, _ => fmvXW_paced cfg index instr
  | .faddS, _ | .fsubS, _ | .fmulS, _ | .fdivS, _ =>
      floatBinary_paced cfg index instr single _
  | .faddD, _ | .fsubD, _ | .fmulD, _ | .fdivD, _ =>
      floatBinary_paced cfg index instr double _
  | .fsqrtS, _ => floatUnary_paced cfg index instr single _
  | .fsqrtD, _ => floatUnary_paced cfg index instr double _
  | .fmaddS, _ | .fmsubS, _ | .fnmaddS, _ | .fnmsubS, _ =>
      floatFused_paced cfg index instr single _
  | .fmaddD, _ | .fmsubD, _ | .fnmaddD, _ | .fnmsubD, _ =>
      floatFused_paced cfg index instr double _
  | .fcvtWS, _ | .fcvtWuS, _ =>
      floatToInteger_paced cfg index instr single rfl _
  | .fcvtWD, _ | .fcvtWuD, _ =>
      floatToInteger_paced cfg index instr double rfl _
  | .fcvtSW, _ | .fcvtSWu, _ =>
      integerToFloat_paced cfg index instr single rfl _
  | .fcvtDW, _ | .fcvtDWu, _ =>
      integerToFloat_paced cfg index instr double rfl _
  | .fcvtSD, _ => fcvtSD_paced cfg index instr
  | .fcvtDS, _ => fcvtDS_paced cfg index instr
  | .fminS, _ | .fmaxS, _ =>
      floatSelect_paced cfg index instr single _ _ _ _ _ _
  | .fminD, _ | .fmaxD, _ =>
      floatSelect_paced cfg index instr double _ _ _ _ _ _
  | .fsgnjS, _ | .fsgnjnS, _ | .fsgnjxS, _ =>
      signInject_paced cfg index instr single _
  | .fsgnjD, _ | .fsgnjnD, _ | .fsgnjxD, _ =>
      signInject_paced cfg index instr double _
  | .feqS, _ | .fltS, _ | .fleS, _ =>
      floatCompare_paced cfg index instr single rfl _
  | .feqD, _ | .fltD, _ | .fleD, _ =>
      floatCompare_paced cfg index instr double rfl _
  | .fclassS, _ => floatClassify_paced cfg index instr single rfl _
  | .fclassD, _ => floatClassify_paced cfg index instr double rfl _

/-- The opcodes without a case end the simulator. -/
theorem unknown_paced {op : Mapping} (unknown : hasCase op = false) :
    Paced cfg index instr op (execute cfg instr op) := by
  cases op
  case custom0 | custom1 | custom2 => simp [Paced, execute]
  all_goals cases unknown

open Exec in
/-- Every instruction of the timing build is paced. -/
theorem execute_paced (timed : cfg.pipelineTiming = true) (op : Mapping) :
    Paced cfg index instr op (execute cfg instr op) := by
  cases floating : isFloat op with
  | true => exact executeFloat_paced cfg index instr floating
  | false =>
      cases accepted : hasCase op with
      | false => exact unknown_paced cfg index instr accepted
      | true =>
          have shapes : Shapes cfg instr fun op body =>
              isFloat op = false → Paced cfg index instr op body := {
            raiseIllegal := fun _ => undef_paced cfg index instr
            unary := fun f _ => unary_paced cfg timed index instr f
            binary := fun f _ => binary_paced cfg timed index instr f
            branch := fun condition _ _ =>
              branch_paced cfg timed index instr condition
            lui := fun _ => lui_paced cfg timed index instr
            auipc := fun _ => auipc_paced cfg timed index instr
            jal := fun _ => jal_paced cfg timed index instr
            jalr := fun _ => jalr_paced cfg timed index instr
            multiply := fun f _ => multiply_paced cfg timed index instr f
            mulhsu := fun _ => mulhsu_paced cfg timed index instr
            divide := fun f _ => divide_paced cfg timed index instr f
            load := fun bytes convert latency positive _ _ =>
              load_paced cfg timed index instr bytes convert latency positive
            store := fun bytes _ _ => store_paced cfg timed index instr bytes
            lrW := fun _ => lrW_paced cfg timed index instr
            scW := fun _ => scW_paced cfg timed index instr
            amo := fun operation member _ =>
              amo_paced cfg index instr member operation
            csrrw := fun _ => csrrw_paced cfg timed index instr
            csrModify := fun f _ _ => csrModify_paced cfg timed index instr f
            csrrwi := fun _ => csrrwi_paced cfg timed index instr
            csrModifyImmediate := fun f _ _ =>
              csrModifyImmediate_paced cfg timed index instr f
            fence := fun _ => fence_paced cfg index instr
            ecall := fun _ => ecall_paced cfg index instr
            ebreak := fun _ => ebreak_paced cfg index instr
            wfi := fun _ => wfi_paced cfg index instr
            sfenceVma := fun _ => sfenceVma_paced cfg index instr
            uret := fun _ => uret_paced cfg index instr
            sret := fun _ => sret_paced cfg index instr
            mret := fun _ => mret_paced cfg index instr
            custom3 := fun _ => custom3_paced cfg timed index instr
            floatBinary := fun format f _ _ =>
              floatBinary_paced cfg index instr format f
            floatUnary := fun format f _ _ =>
              floatUnary_paced cfg index instr format f
            floatFused := fun format f _ _ =>
              floatFused_paced cfg index instr format f
            floatToInteger := fun _ _ member other => by simp_all
            integerToFloat := fun _ _ member other => by simp_all
            fcvtSD := fun _ => fcvtSD_paced cfg index instr
            fcvtDS := fun _ => fcvtDS_paced cfg index instr
            floatSelect := fun format _ _ _ _ _ _ _ _ =>
              floatSelect_paced cfg index instr format _ _ _ _ _ _
            signInject := fun format f _ _ =>
              signInject_paced cfg index instr format f
            floatCompare := fun _ _ member other => by simp_all
            floatClassify := fun _ _ member other => by simp_all
            flw := fun _ => flw_paced cfg index instr
            fsw := fun _ => fsw_paced cfg index instr
            fld := fun _ => fld_paced cfg index instr
            fsd := fun _ => fsd_paced cfg index instr
            fmvWX := fun _ => fmvWX_paced cfg index instr
            fmvXW := fun _ => fmvXW_paced cfg index instr }
          exact execute_of_shapes shapes accepted floating

end Switch

end Rv32

end RiscvVp
