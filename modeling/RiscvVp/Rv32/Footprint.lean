import Mathlib.Logic.Unique
import RiscvVp.Rv32.Shapes

/-!
# The footprint of an opcode

Which services the body of an opcode uses, whatever they answer.  The program
counter is assigned by the control transfers only, the reservation window by
`LR.W` and `SC.W`, the floating-point registers by the floating-point
instructions, and a CSR instruction touches the one register it names.
-/

namespace RiscvVp

namespace Rv32

open Interaction

/-- The actions that the body of an opcode may perform. -/
def mayPerform (op : Mapping) (instr : Instruction) : Action → Prop
  | .setPc _ => isTransfer op = true
  | .setLrScCounter value =>
      (op = .lrW ∧ value = Exec.lrScWindow) ∨ (op = .scW ∧ value = 0)
  | .hitBreakpoint => op = .ebreak
  | .setFpReg _ _ | .raiseFlags _ | .setRoundingMode _ | .fpSetDirty
  | .fpUpdateExceptionFlags => isFloat op = true
  | .isInvalidCsrAccess addr _ | .getCsrValue addr | .setCsrValue addr _ =>
      isCsr op = true ∧ addr = instr.csr
  | .loadData _ _ => isLoad op = true ∨ isFloat op = true
  | .storeData _ _ _ => isStore op = true ∨ isFloat op = true
  | .amoLoadWord _ | .atomicStoreWord _ _ => isAmo op = true
  | .atomicLoadReservedWord _ => op = .lrW
  | .atomicStoreConditionalWord _ _ => op = .scW
  | .releaseLrScReservation | .waitWfi => op = .wfi
  | .flushTlb => op = .sfenceVma
  | .executeSyscall => op = .ecall
  | .returnFromTrapHandler mode => returnMode op = some mode
  | .fatal reason =>
      (reason = .oddPc ∧ isTransfer op = true) ∨
        (reason = .softfloatFlags ∧ isFloat op = true) ∨
        (reason = .unknownPrivilegeLevel ∧ op = .ecall)
  | _ => True

/-- The body stays within the footprint of its opcode. -/
def WithinFootprint (op : Mapping) (instr : Instruction)
    (body : Body Unit) : Prop :=
  body.Asks (mayPerform op instr)

/-! ## Rules -/

section Rules

open Body Program

variable {α : Type} {permitted : Action → Prop}

@[simp]
theorem asks_act (action : Action) (receive : action.Answer → α)
    (property : Unit → α → Prop) :
    (act action receive).Under (restricting permitted) () property ↔
      permitted action ∧ ∀ reply, property () (receive reply) := by
  simp [act, ask, under_call, restricting]

@[simp]
theorem asks_raiseTrap (reason : ExceptionCode) (mtval : BitVec 64)
    (property : Unit → α → Prop) :
    (raiseTrap reason mtval).Under (restricting permitted) () property ↔
      permitted (.raiseTrap reason mtval) := by
  rw [raiseTrap, under_call]
  exact and_iff_left fun never => nomatch never

@[simp]
theorem asks_fatal (reason : Fatal) (property : Unit → α → Prop) :
    (fatal reason).Under (restricting permitted) () property ↔
      permitted (.fatal reason) := by
  rw [fatal, under_call]
  exact and_iff_left fun never => nomatch never

@[simp]
theorem asks_ite (condition : Prop) [Decidable condition]
    (first second : Body α) (property : Unit → α → Prop) :
    (if condition then first else second).Under (restricting permitted) ()
        property ↔
      (condition → first.Under (restricting permitted) () property) ∧
        (¬ condition → second.Under (restricting permitted) () property) := by
  by_cases holds : condition <;> simp [holds]

end Rules

namespace Exec

open Body Program

variable (cfg : Config) (instr : Instruction)

/-- An operation that rounds stays within the footprint when what it operates
on does. -/
theorem rounded_withinFootprint {op : Mapping} (member : isFloat op = true)
    (extension : BitVec 32) {operate : Fp.RoundingMode → Body Unit}
    (operates : ∀ rm, WithinFootprint op instr (operate rm)) :
    WithinFootprint op instr (rounded instr extension operate) := by
  have finishes : ∀ rm : Fp.RoundingMode,
      (operate rm).Under (restricting (mayPerform op instr)) ()
        fun last _ => fpFinishInstr.Under
          (restricting (mayPerform op instr)) last fun _ _ => True := by
    intro rm
    refine Under.mono (operates rm) fun last _ _ => ?_
    cases last
    simp [fpFinishInstr, fpSetDirty, fpUpdateExceptionFlags, under_bind,
      mayPerform, member]
  simp [WithinFootprint, Asks, rounded, fpSetupRm, roundingMode,
    fpPrepareInstr, fpRequireNotOff, requireIsa, raiseIllegal, csr,
    under_bind, mayPerform, member, finishes]

/-- Every shape stays within the footprint of its opcodes. -/
theorem shapes_withinFootprint :
    Shapes cfg instr fun op => WithinFootprint op instr where
  raiseIllegal := by simp [WithinFootprint, Asks, raiseIllegal, mayPerform]
  unary _ := by
    simp [WithinFootprint, Asks, unary, Body.read, write, accessRegister, reg,
      setReg, under_bind, mayPerform]
  binary _ := by
    simp [WithinFootprint, Asks, binary, Body.read, write, accessRegister, reg,
      setReg, under_bind, mayPerform]
  branch _ member := by
    simp [WithinFootprint, Asks, branch, Body.read, accessRegister, reg,
      lastPc, setPc, pc, csr, trapCheckPcAlignment, under_bind, mayPerform,
      isTransfer, member]
  lui := by
    simp [WithinFootprint, Asks, lui, write, accessRegister, setReg,
      under_bind, mayPerform]
  auipc := by
    simp [WithinFootprint, Asks, auipc, write, accessRegister, setReg, lastPc,
      under_bind, mayPerform]
  jal := by
    simp [WithinFootprint, Asks, jal, write, accessRegister, setReg, lastPc,
      setPc, pc, csr, trapCheckPcAlignment, under_bind, mayPerform,
      isTransfer]
  jalr := by
    simp [WithinFootprint, Asks, jalr, write, accessRegister, reg, setReg,
      setPc, pc, csr, trapCheckPcAlignment, under_bind, mayPerform,
      isTransfer]
  multiply _ := by
    simp [WithinFootprint, Asks, multiply, requireIsa, raiseIllegal, csr,
      Body.read, write, accessRegister, reg, setReg, under_bind, mayPerform]
  mulhsu := by
    simp [WithinFootprint, Asks, mulhsu, requireIsa, raiseIllegal, csr,
      Body.read, write, accessRegister, reg, setReg, under_bind, mayPerform]
  divide _ := by
    simp [WithinFootprint, Asks, divide, requireIsa, raiseIllegal, csr,
      Body.read, write, accessRegister, reg, setReg, under_bind, mayPerform]
  load bytes _ _ _ member := by
    by_cases single : bytes = 1 <;>
      simp [WithinFootprint, Asks, load, loadData, checkAlignment,
        trapCheckAddrAlignment, Body.read, write, accessRegister, reg, setReg,
        under_bind, mayPerform, member, single]
  store bytes member := by
    by_cases single : bytes = 1 <;>
      simp [WithinFootprint, Asks, store, storeData, checkAlignment,
        trapCheckAddrAlignment, Body.read, accessRegister, reg, under_bind,
        mayPerform, member, single]
  lrW := by
    simp [WithinFootprint, Asks, lrW, requireIsa, raiseIllegal, csr,
      trapCheckAddrAlignment, atomicLoadReservedWord, Body.read, write,
      accessRegister, reg, setReg, under_bind, mayPerform]
  scW := by
    simp [WithinFootprint, Asks, scW, requireIsa, raiseIllegal, csr,
      trapCheckAddrAlignment, atomicStoreConditionalWord, Body.read, write,
      accessRegister, reg, setReg, under_bind, mayPerform]
  amo _ member := by
    simp [WithinFootprint, Asks, amo, executeAmo, requireIsa, raiseIllegal,
      csr, trapCheckAddrAlignment, reg, setReg, under_bind, mayPerform,
      member]
  csrrw := by
    simp [WithinFootprint, Asks, csrrw, isInvalidCsrAccess, getCsrValue,
      setCsrValue, doCsr, raiseIllegal, Body.read, write, accessRegister, reg,
      setReg, under_bind, mayPerform, isCsr]
  csrModify _ member := by
    simp [WithinFootprint, Asks, csrModify, isInvalidCsrAccess, getCsrValue,
      setCsrValue, doCsr, raiseIllegal, Body.read, write, accessRegister, reg,
      setReg, under_bind, mayPerform, member]
  csrrwi := by
    simp [WithinFootprint, Asks, csrrwi, isInvalidCsrAccess, getCsrValue,
      setCsrValue, doCsr, raiseIllegal, write, accessRegister, setReg,
      under_bind, mayPerform, isCsr]
  csrModifyImmediate _ member := by
    simp [WithinFootprint, Asks, csrModifyImmediate, isInvalidCsrAccess,
      getCsrValue, setCsrValue, doCsr, raiseIllegal, write, accessRegister,
      setReg, under_bind, mayPerform, member]
  fence := by simp [WithinFootprint, Asks, fence]
  ecall := by
    simp [WithinFootprint, Asks, ecall, prv, lastPc, under_bind, mayPerform]
  ebreak := by simp [WithinFootprint, Asks, ebreak, mayPerform]
  wfi := by
    simp [WithinFootprint, Asks, wfi, prv, csr, mstatusIsSet, hasExtension,
      hasLocalPendingEnabledInterrupts, raiseIllegal, under_bind, mayPerform]
  sfenceVma := by
    simp [WithinFootprint, Asks, sfenceVma, prv, csr, mstatusIsSet,
      raiseIllegal, under_bind, mayPerform]
  uret := by
    simp [WithinFootprint, Asks, uret, csr, hasExtension, raiseIllegal,
      under_bind, mayPerform, returnMode]
  sret := by
    simp [WithinFootprint, Asks, sret, prv, csr, hasExtension, mstatusIsSet,
      raiseIllegal, under_bind, mayPerform, returnMode]
  mret := by simp [WithinFootprint, Asks, mret, mayPerform, returnMode]
  custom3 := by
    unfold custom3
    split
    · simp [WithinFootprint, Asks]
    · simp [WithinFootprint, Asks, Body.read, write, accessRegister, reg,
        setReg, under_bind, mayPerform]
  floatBinary format _ member :=
    rounded_withinFootprint instr member _ fun _ => by
      simp [WithinFootprint, Asks, readFloat, writeFloat, fpReg, setFpReg,
        raising, under_bind, mayPerform, member]
  floatUnary format _ member :=
    rounded_withinFootprint instr member _ fun _ => by
      simp [WithinFootprint, Asks, readFloat, writeFloat, fpReg, setFpReg,
        raising, under_bind, mayPerform, member]
  floatFused format _ member :=
    rounded_withinFootprint instr member _ fun _ => by
      simp [WithinFootprint, Asks, readFloat, writeFloat, fpReg, setFpReg,
        raising, under_bind, mayPerform, member]
  floatToInteger format _ member :=
    rounded_withinFootprint instr member _ fun _ => by
      simp [WithinFootprint, Asks, readFloat, fpReg, raising, setReg,
        under_bind, mayPerform, member]
  integerToFloat format _ member :=
    rounded_withinFootprint instr member _ fun _ => by
      simp [WithinFootprint, Asks, reg, writeFloat, setFpReg, raising,
        under_bind, mayPerform, member]
  fcvtSD := rounded_withinFootprint instr rfl _ fun _ => by
    simp [WithinFootprint, Asks, readFloat, writeFloat, fpReg, setFpReg,
      raising, under_bind, mayPerform, isFloat]
  fcvtDS := rounded_withinFootprint instr rfl _ fun _ => by
    simp [WithinFootprint, Asks, readFloat, writeFloat, fpReg, setFpReg,
      raising, under_bind, mayPerform, isFloat]
  floatSelect format _ _ _ _ _ _ member := by
    simp [WithinFootprint, Asks, floatSelect, requireIsa, raiseIllegal, csr,
      fpPrepareInstr, fpRequireNotOff, fpFinishInstr, fpSetDirty,
      fpUpdateExceptionFlags, readFloat, writeFloat, fpReg, setFpReg, raising,
      under_bind, mayPerform, member]
  signInject format _ member := by
    simp [WithinFootprint, Asks, signInject, requireIsa, raiseIllegal, csr,
      fpPrepareInstr, fpRequireNotOff, fpSetDirty, readFloat, writeFloat,
      fpReg, setFpReg, under_bind, mayPerform, member]
  floatCompare format _ member := by
    simp [WithinFootprint, Asks, floatCompare, requireIsa, raiseIllegal, csr,
      fpPrepareInstr, fpRequireNotOff, fpUpdateExceptionFlags, readFloat,
      fpReg, setReg, raising, under_bind, mayPerform, member]
  floatClassify format _ member := by
    simp [WithinFootprint, Asks, floatClassify, requireIsa, raiseIllegal, csr,
      fpPrepareInstr, fpRequireNotOff, readFloat, fpReg, setReg, under_bind,
      mayPerform, member]
  flw := by
    simp [WithinFootprint, Asks, flw, requireIsa, raiseIllegal, csr, reg,
      trapCheckAddrAlignment, writeFloat, setFpReg, under_bind, mayPerform,
      isFloat]
  fsw := by
    simp [WithinFootprint, Asks, fsw, requireIsa, raiseIllegal, csr, reg,
      trapCheckAddrAlignment, fpReg, under_bind, mayPerform, isFloat]
  fld := by
    simp [WithinFootprint, Asks, fld, requireIsa, raiseIllegal, csr, reg,
      trapCheckAddrAlignment, writeFloat, setFpReg, under_bind, mayPerform,
      isFloat]
  fsd := by
    simp [WithinFootprint, Asks, fsd, requireIsa, raiseIllegal, csr, reg,
      trapCheckAddrAlignment, fpReg, under_bind, mayPerform, isFloat]
  fmvWX := by
    simp [WithinFootprint, Asks, fmvWX, requireIsa, raiseIllegal, csr, reg,
      fpPrepareInstr, fpRequireNotOff, fpSetDirty, writeFloat, setFpReg,
      under_bind, mayPerform, isFloat]
  fmvXW := by
    simp [WithinFootprint, Asks, fmvXW, requireIsa, raiseIllegal, csr,
      fpPrepareInstr, fpRequireNotOff, fpReg, setReg, under_bind, mayPerform,
      isFloat]

end Exec

/-- Every case of the switch stays within the footprint of its opcode. -/
theorem execute_withinFootprint (cfg : Config) (instr : Instruction)
    {op : Mapping} (accepted : hasCase op = true) :
    WithinFootprint op instr (execute cfg instr op) :=
  execute_of_shapes (Exec.shapes_withinFootprint cfg instr) accepted

end Rv32

end RiscvVp
