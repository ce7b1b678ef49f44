import Mathlib.Logic.Unique
import RiscvVp.Rv32.Shapes

/-!
# The discipline of the instruction bodies

Every body of the switch obeys one monitor:

* it traps only before it has written an integer register or memory, except
  that a conditional store writes its failure code first;
* it writes a control register only after an access check for that very
  register has allowed it, and after a write of the destination only when the
  register has been read before;
* it leaves a trap handler only in the three return instructions, each for
  its own mode;
* an AMO performs nothing between its load and its store but a register read;
* it dies of an unknown privilege level only after it has read one.

`execute_disciplined` proves this for every opcode that the switch has a case
for.
-/

namespace RiscvVp

namespace Rv32

open Interaction

/-- What the monitor remembers of a body. -/
structure Progress where
  /-- the privilege level it has read -/
  prv : Option PrivilegeLevel := none
  /-- the register that it may write -/
  csrChecked : Option (BitVec 32) := none
  /-- the register that it has read -/
  csrRead : Option (BitVec 32) := none
  /-- it is between the load and the store of an AMO -/
  amo : Bool := false
  /-- it has written a register or memory -/
  committed : Bool := false

namespace Progress

/-- Nothing has been written and no AMO is under way. -/
def clean (progress : Progress) : Prop :=
  progress.amo = false ∧ progress.committed = false

/-- What a body may do. -/
def permits (op : Mapping) (instr : Instruction) (progress : Progress) :
    Action → Prop
  | .reg _ => True
  | .raiseTrap _ _ | .isInvalidCsrAccess _ _ | .getCsrValue _
  | .loadData _ _ | .storeData _ _ _ | .amoLoadWord _
  | .atomicLoadReservedWord _ => progress.clean
  | .atomicStoreWord _ _ => progress.amo = true ∧ progress.committed = false
  | .atomicStoreConditionalWord _ _ =>
      progress.amo = false ∧ (progress.committed = true → op = .scW)
  | .setCsrValue addr _ =>
      progress.amo = false ∧ isCsr op = true ∧ addr = instr.csr ∧
        progress.csrChecked = some addr ∧
        (progress.committed = true → progress.csrRead = some addr)
  | .returnFromTrapHandler mode =>
      progress.clean ∧ returnMode op = some mode
  | .fatal reason =>
      reason = .oddPc ∨ reason = .softfloatFlags ∨
        (reason = .unknownPrivilegeLevel ∧
          ∃ mode, progress.prv = some mode ∧ ¬ mode.isValid)
  | _ => progress.amo = false

/-- What is remembered of an action and its answer. -/
def after (progress : Progress) : (action : Action) → action.Answer → Progress
  | .prv, mode => { progress with prv := some mode }
  | .isInvalidCsrAccess addr isWrite, isInvalid =>
      if isWrite ∧ isInvalid = false then
        { progress with csrChecked := some addr }
      else progress
  | .getCsrValue addr, _ => { progress with csrRead := some addr }
  | .amoLoadWord _, _ => { progress with amo := true }
  | .atomicStoreWord _ _, _ =>
      { progress with amo := false, committed := true }
  | .setReg _ _, _ | .executeSyscall, _ | .storeData _ _ _, _
  | .atomicStoreConditionalWord _ _, _ | .setCsrValue _ _, _
  | .returnFromTrapHandler _, _ => { progress with committed := true }
  | _, _ => progress

end Progress

/-- The monitor of the body of an instruction. -/
def discipline (op : Mapping) (instr : Instruction) :
    Monitor Action.Answer Progress where
  requires := Progress.permits op instr
  allows _ _ _ := True
  next := Progress.after

/-- The body obeys the discipline from its beginning to its end. -/
def Disciplined (op : Mapping) (instr : Instruction) (body : Body Unit) :
    Prop :=
  body.Under (discipline op instr) {} fun progress _ => progress.amo = false

attribute [local simp] Progress.permits Progress.after Disciplined

/-! ## Rules -/

section Rules

open Body

variable {α : Type} {op : Mapping} {instr : Instruction}
  {progress : Progress}

@[simp]
theorem under_act (action : Action) (receive : action.Answer → α)
    (property : Progress → α → Prop) :
    (act action receive).Under (discipline op instr) progress property ↔
      progress.permits op instr action ∧
        ∀ reply, property (progress.after action reply) (receive reply) := by
  simp [act, Program.ask, Program.under_call, discipline]

@[simp]
theorem under_raiseTrap (reason : ExceptionCode) (mtval : BitVec 64)
    (property : Progress → α → Prop) :
    (raiseTrap reason mtval).Under (discipline op instr) progress property ↔
      progress.clean := by
  rw [raiseTrap, Program.under_call]
  exact and_iff_left fun never => nomatch never

@[simp]
theorem under_fatal (reason : Fatal) (property : Progress → α → Prop) :
    (fatal reason).Under (discipline op instr) progress property ↔
      progress.permits op instr (.fatal reason) := by
  rw [fatal, Program.under_call]
  exact and_iff_left fun never => nomatch never

@[simp]
theorem under_raiseIllegal (word : Instruction)
    (property : Progress → α → Prop) :
    (raiseIllegal word).Under (discipline op instr) progress property ↔
      progress.clean :=
  under_raiseTrap _ _ property

@[simp]
theorem under_ite (condition : Prop) [Decidable condition]
    (first second : Body α) (property : Progress → α → Prop) :
    (if condition then first else second).Under (discipline op instr) progress
        property ↔
      (condition → first.Under (discipline op instr) progress property) ∧
        (¬ condition → second.Under (discipline op instr) progress property) := by
  by_cases holds : condition <;> simp [holds]

/-! A statement that may neither trap nor commit. -/

@[simp]
theorem under_reg (regIdx : BitVec 5)
    (property : Progress → BitVec 32 → Prop) :
    (reg regIdx).Under (discipline op instr) progress property ↔
      ∀ value, property progress value := by
  simp [reg, Progress.permits, Progress.after]

@[simp]
theorem under_setReg (regIdx : BitVec 5) (value : BitVec 32)
    (property : Progress → Unit → Prop) :
    (setReg regIdx value).Under (discipline op instr) progress property ↔
      progress.amo = false ∧
        property { progress with committed := true } () := by
  simp [setReg, Action.Answer, Unique.forall_iff, Progress.permits,
    Progress.after]

@[simp]
theorem under_pc (property : Progress → BitVec 32 → Prop) :
    pc.Under (discipline op instr) progress property ↔
      progress.amo = false ∧ ∀ value, property progress value := by
  simp [pc, Progress.permits, Progress.after]

@[simp]
theorem under_setPc (value : BitVec 32)
    (property : Progress → Unit → Prop) :
    (setPc value).Under (discipline op instr) progress property ↔
      progress.amo = false ∧ property progress () := by
  simp [setPc, Action.Answer, Unique.forall_iff, Progress.permits,
    Progress.after]

@[simp]
theorem under_lastPc (property : Progress → BitVec 32 → Prop) :
    lastPc.Under (discipline op instr) progress property ↔
      progress.amo = false ∧ ∀ value, property progress value := by
  simp [lastPc, Progress.permits, Progress.after]

@[simp]
theorem under_prv (property : Progress → PrivilegeLevel → Prop) :
    prv.Under (discipline op instr) progress property ↔
      progress.amo = false ∧
        ∀ mode, property { progress with prv := some mode } mode := by
  simp [prv, Progress.permits, Progress.after]

@[simp]
theorem under_csr (register : Csr.Register)
    (property : Progress → BitVec 32 → Prop) :
    (csr register).Under (discipline op instr) progress property ↔
      progress.amo = false ∧ ∀ value, property progress value := by
  simp [csr, Progress.permits, Progress.after]

@[simp]
theorem under_accessRegister (regIdx : BitVec 5)
    (property : Progress → Unit → Prop) :
    (accessRegister regIdx).Under (discipline op instr) progress property ↔
      progress.amo = false ∧ property progress () := by
  simp [accessRegister, Action.Answer, Unique.forall_iff, Progress.permits,
    Progress.after]

@[simp]
theorem under_read (regIdx : BitVec 5)
    (property : Progress → BitVec 32 → Prop) :
    (Body.read regIdx).Under (discipline op instr) progress property ↔
      progress.amo = false ∧ ∀ value, property progress value := by
  simp [Body.read, Program.under_bind]

@[simp]
theorem under_write (regIdx : BitVec 5) (value : BitVec 32)
    (property : Progress → Unit → Prop) :
    (write regIdx value).Under (discipline op instr) progress property ↔
      progress.amo = false ∧
        property { progress with committed := true } () := by
  simp [write, Program.under_bind]

@[simp]
theorem under_requireIsa (word : Instruction) (extension : BitVec 32)
    (property : Progress → Unit → Prop) :
    (requireIsa word extension).Under (discipline op instr) progress property ↔
      progress.amo = false ∧ ∀ misa,
        (Csr.Misa.has misa extension = false → progress.clean) ∧
          (Csr.Misa.has misa extension = true → property progress ()) := by
  simp [requireIsa, Program.under_bind]

@[simp]
theorem under_trapCheckAddrAlignment (alignment : Nat) (isLoad : Bool)
    (addr : BitVec 32) (property : Progress → Unit → Prop) :
    (trapCheckAddrAlignment alignment isLoad addr).Under (discipline op instr)
        progress property ↔
      (addr.toNat % alignment ≠ 0 → progress.clean) ∧
        (addr.toNat % alignment = 0 → property progress ()) := by
  simp [trapCheckAddrAlignment, and_comm]

/-- The alignment check of a jump, which the body makes before it writes. -/
@[simp]
theorem under_trapCheckPcAlignment (property : Progress → Unit → Prop) :
    trapCheckPcAlignment.Under (discipline op instr) progress property ↔
      progress.amo = false ∧ ∀ pc : BitVec 32, pc &&& 0x1 = 0 →
        ∀ misa : BitVec 32,
          (pc &&& 0x3 ≠ 0 ∧ Csr.Misa.has misa Csr.Misa.c = false →
            progress.clean) ∧
          (¬ (pc &&& 0x3 ≠ 0 ∧ Csr.Misa.has misa Csr.Misa.c = false) →
            property progress ()) := by
  simp +contextual [trapCheckPcAlignment, Program.under_bind,
    Progress.permits, forall_and]

end Rules

/-! ## Integer instructions -/

namespace Exec

open Body Program

variable {op : Mapping} (cfg : Config) (instr : Instruction)

theorem unary_disciplined (f : BitVec 32 → BitVec 32) :
    Disciplined op instr (unary cfg instr f) := by
  simp [Disciplined, unary, under_bind]

theorem binary_disciplined (f : BitVec 32 → BitVec 32 → BitVec 32) :
    Disciplined op instr (binary cfg instr f) := by
  simp [Disciplined, binary, under_bind]

theorem branch_disciplined (condition : BitVec 32 → BitVec 32 → Bool) :
    Disciplined op instr (branch cfg instr condition) := by
  simp [Disciplined, branch, under_bind,
    Progress.clean]

theorem lui_disciplined : Disciplined op instr (lui cfg instr) := by
  simp [Disciplined, lui]

theorem auipc_disciplined : Disciplined op instr (auipc cfg instr) := by
  simp [Disciplined, auipc, under_bind]

theorem jal_disciplined : Disciplined op instr (jal cfg instr) := by
  simp [Disciplined, jal, under_bind,
    Progress.clean]

theorem jalr_disciplined : Disciplined op instr (jalr cfg instr) := by
  simp [Disciplined, jalr, under_bind,
    Progress.clean]

theorem multiply_disciplined (f : BitVec 32 → BitVec 32 → BitVec 32) :
    Disciplined op instr (multiply cfg instr f) := by
  simp [Disciplined, multiply, under_bind,
    Progress.clean, Progress.permits, Progress.after]

theorem mulhsu_disciplined : Disciplined op instr (mulhsu cfg instr) := by
  simp [Disciplined, mulhsu, under_bind, Progress.clean, Progress.permits,
    Progress.after]

theorem divide_disciplined (f : BitVec 32 → BitVec 32 → BitVec 32) :
    Disciplined op instr (divide cfg instr fun a b => some (f a b)) := by
  simp [Disciplined, divide, under_bind, Progress.clean, Progress.permits,
    Progress.after]

/-! ## Memory instructions -/

@[simp]
theorem under_checkAlignment {progress : Progress} (bytes : Nat)
    (isLoad : Bool) (addr : BitVec 32)
    (property : Progress → Unit → Prop) :
    (checkAlignment bytes isLoad addr).Under (discipline op instr) progress
        property ↔
      (bytes ≠ 1 ∧ addr.toNat % bytes ≠ 0 → progress.clean) ∧
        (bytes = 1 ∨ addr.toNat % bytes = 0 → property progress ()) := by
  by_cases single : bytes = 1 <;> simp [checkAlignment, single]

theorem store_disciplined (bytes : Nat) :
    Disciplined op instr (store cfg instr bytes) := by
  simp [Disciplined, store, storeData, under_bind, Progress.clean,
    Progress.permits, Progress.after]

theorem load_disciplined (bytes : Nat) (convert : BitVec (8 * bytes) → BitVec 32)
    (latency : Nat) (positive : 0 < latency) :
    Disciplined op instr
      (load cfg instr bytes
        (fun addr => loadData bytes addr >>= fun value => pure (convert value))
        latency positive) := by
  simp [Disciplined, load, loadData, under_bind, Progress.clean,
    Progress.permits, Progress.after]

theorem lrW_disciplined : Disciplined op instr (lrW cfg instr) := by
  simp [Disciplined, lrW, atomicLoadReservedWord, under_bind,
    Progress.clean, Progress.permits, Progress.after]

theorem scW_disciplined : Disciplined .scW instr (scW cfg instr) := by
  simp [Disciplined, scW, atomicStoreConditionalWord, under_bind,
    Progress.clean, Progress.permits, Progress.after]

theorem amo_disciplined (operation : BitVec 32 → BitVec 32 → BitVec 32) :
    Disciplined op instr (amo instr operation) := by
  simp [Disciplined, amo, executeAmo, under_bind, Progress.clean,
    Progress.permits, Progress.after]

/-! ## CSR instructions -/

theorem csrrw_disciplined (csr : isCsr op = true) :
    Disciplined op instr (csrrw cfg instr) := by
  simp [Disciplined, csrrw, isInvalidCsrAccess, getCsrValue, setCsrValue,
    doCsr, under_bind, Progress.clean, Progress.permits, Progress.after, csr]

theorem csrModify_disciplined (csr : isCsr op = true)
    (f : BitVec 32 → BitVec 32 → BitVec 32) :
    Disciplined op instr (csrModify cfg instr f) := by
  by_cases writes : instr.rs1 = 0#5 <;>
    simp [Disciplined, csrModify, isInvalidCsrAccess, getCsrValue,
      setCsrValue, doCsr, under_bind, Progress.clean, Progress.permits,
      Progress.after, csr, writes]

theorem csrrwi_disciplined (csr : isCsr op = true) :
    Disciplined op instr (csrrwi cfg instr) := by
  simp [Disciplined, csrrwi, isInvalidCsrAccess, getCsrValue, setCsrValue,
    doCsr, under_bind, Progress.clean, Progress.permits, Progress.after, csr]

theorem csrModifyImmediate_disciplined (csr : isCsr op = true)
    (f : BitVec 32 → BitVec 32 → BitVec 32) :
    Disciplined op instr (csrModifyImmediate cfg instr f) := by
  by_cases writes : instr.zimm = 0#32 <;>
    simp [Disciplined, csrModifyImmediate, isInvalidCsrAccess, getCsrValue,
      setCsrValue, doCsr, under_bind, Progress.clean, Progress.permits,
      Progress.after, csr, writes]

/-! ## System instructions -/

theorem fence_disciplined : Disciplined op instr fence := by
  simp [Disciplined, fence]

theorem ecall_disciplined : Disciplined op instr (ecall cfg) := by
  simp +contextual [Disciplined, ecall, under_bind, Progress.clean, Progress.permits,
    Progress.after, PrivilegeLevel.isValid]

theorem ebreak_disciplined : Disciplined op instr ebreak := by
  simp [Disciplined, ebreak, Progress.permits, Progress.after]

theorem wfi_disciplined : Disciplined op instr (wfi instr) := by
  simp [Disciplined, wfi, mstatusIsSet, hasExtension,
    hasLocalPendingEnabledInterrupts, under_bind, Progress.clean,
    Progress.permits, Progress.after]

theorem sfenceVma_disciplined : Disciplined op instr (sfenceVma instr) := by
  simp [Disciplined, sfenceVma, mstatusIsSet, under_bind, Progress.clean,
    Progress.permits, Progress.after]

theorem uret_disciplined : Disciplined .uret instr (uret instr) := by
  simp [Disciplined, uret, hasExtension, under_bind, Progress.clean,
    Progress.permits, Progress.after, returnMode]

theorem sret_disciplined : Disciplined .sret instr (sret instr) := by
  simp [Disciplined, sret, hasExtension, mstatusIsSet, under_bind,
    Progress.clean, Progress.permits, Progress.after, returnMode]

theorem mret_disciplined : Disciplined .mret instr mret := by
  simp [Disciplined, mret, Progress.clean, Progress.permits,
    Progress.after, returnMode]

theorem custom3_disciplined : Disciplined op instr (custom3 cfg instr) := by
  unfold custom3
  split
  · simp [Disciplined]
  · simp [Disciplined, under_bind]

theorem undef_disciplined : Disciplined op instr (raiseIllegal instr) := by
  simp [Disciplined, Progress.clean]

/-! ## Floating-point instructions -/

@[simp]
theorem under_raising {α : Type} {progress : Progress}
    (result : α × Fp.Flags) (property : Progress → α → Prop) :
    (raising result).Under (discipline op instr) progress property ↔
      progress.amo = false ∧ property progress result.1 := by
  simp [raising, under_bind, Progress.permits, Progress.after, Action.Answer]

/-- What every floating-point body does first. -/
@[simp]
theorem under_fpPrepareInstr {progress : Progress}
    (property : Progress → Unit → Prop) :
    (fpPrepareInstr instr).Under (discipline op instr) progress property ↔
      progress.amo = false ∧ ∀ mstatus : BitVec 32,
        (Csr.Mstatus.fs.get mstatus = 0b00 → progress.clean) ∧
          (Csr.Mstatus.fs.get mstatus ≠ 0b00 → property progress ()) := by
  simp [fpPrepareInstr, fpRequireNotOff, under_bind, Progress.permits,
    Progress.after]

/-- An operation that rounds is disciplined when what it operates on is. -/
theorem rounded_disciplined (extension : BitVec 32)
    {operate : Fp.RoundingMode → Body Unit}
    (operates : ∀ rm, Disciplined op instr (operate rm)) :
    Disciplined op instr (rounded instr extension operate) := by
  have finishes : ∀ rm : Fp.RoundingMode,
      (operate rm).Under (discipline op instr) {} fun progress _ =>
        (fpFinishInstr).Under (discipline op instr) progress fun last _ =>
          last.amo = false := by
    intro rm
    refine (operates rm).mono fun progress _ idle => ?_
    simp [fpFinishInstr, fpSetDirty, fpUpdateExceptionFlags, under_bind,
      Progress.permits, Progress.after, idle]
  simp [Disciplined, rounded, fpSetupRm, roundingMode, under_bind,
    Progress.clean, Progress.permits, Progress.after, finishes]

variable (format : Format)

@[simp]
theorem under_readFloat {progress : Progress} (regIdx : BitVec 5)
    (property : Progress → BitVec format.width → Prop) :
    (readFloat format regIdx).Under (discipline op instr) progress property ↔
      progress.amo = false ∧
        ∀ register, property progress (format.unbox register) := by
  simp [readFloat, fpReg, under_bind, Progress.permits, Progress.after]

@[simp]
theorem under_writeFloat {progress : Progress} (regIdx : BitVec 5)
    (value : BitVec format.width) (property : Progress → Unit → Prop) :
    (writeFloat format regIdx value).Under (discipline op instr) progress
        property ↔
      progress.amo = false ∧ property progress () := by
  simp [writeFloat, setFpReg, Progress.permits, Progress.after,
    Action.Answer, Unique.forall_iff]

theorem floatBinary_disciplined
    (f : Fp.RoundingMode → BitVec format.width → BitVec format.width →
      BitVec format.width × Fp.Flags) :
    Disciplined op instr (floatBinary instr format f) :=
  rounded_disciplined instr _ fun rm => by simp [Disciplined, under_bind]

theorem floatUnary_disciplined
    (f : Fp.RoundingMode → BitVec format.width →
      BitVec format.width × Fp.Flags) :
    Disciplined op instr (floatUnary instr format f) :=
  rounded_disciplined instr _ fun rm => by simp [Disciplined, under_bind]

theorem floatFused_disciplined
    (f : Fp.RoundingMode → BitVec format.width → BitVec format.width →
      BitVec format.width → BitVec format.width × Fp.Flags) :
    Disciplined op instr (floatFused instr format f) :=
  rounded_disciplined instr _ fun rm => by simp [Disciplined, under_bind]

theorem floatToInteger_disciplined
    (f : Fp.RoundingMode → BitVec format.width → BitVec 32 × Fp.Flags) :
    Disciplined op instr (floatToInteger instr format f) :=
  rounded_disciplined instr _ fun rm => by simp [Disciplined, under_bind]

theorem integerToFloat_disciplined
    (f : Fp.RoundingMode → BitVec 32 → BitVec format.width × Fp.Flags) :
    Disciplined op instr (integerToFloat instr format f) :=
  rounded_disciplined instr _ fun rm => by simp [Disciplined, under_bind]

theorem fcvtSD_disciplined : Disciplined op instr (fcvtSD cfg instr) :=
  rounded_disciplined instr _ fun rm => by
    simp [Disciplined, readFloat, fpReg, under_bind, Progress.permits,
      Progress.after]

theorem fcvtDS_disciplined : Disciplined op instr (fcvtDS cfg instr) :=
  rounded_disciplined instr _ fun rm => by
    simp [Disciplined, readFloat, fpReg, under_bind, Progress.permits,
      Progress.after]

theorem floatSelect_disciplined
    (lessQuiet equal : BitVec format.width → BitVec format.width →
      Bool × Fp.Flags)
    (isNegative isNaN : BitVec format.width → Bool)
    (defaultNaN : BitVec format.width) (greatest : Bool) :
    Disciplined op instr
      (floatSelect instr format lessQuiet equal isNegative isNaN defaultNaN
        greatest) := by
  simp [Disciplined, floatSelect, fpFinishInstr, fpSetDirty,
    fpUpdateExceptionFlags, under_bind, Progress.clean, Progress.permits,
    Progress.after]

theorem signInject_disciplined
    (f : BitVec format.width → BitVec format.width →
      BitVec format.width) :
    Disciplined op instr (signInject instr format f) := by
  simp [Disciplined, signInject, fpSetDirty, under_bind, Progress.clean,
    Progress.permits, Progress.after]

theorem floatCompare_disciplined
    (f : BitVec format.width → BitVec format.width → Bool × Fp.Flags) :
    Disciplined op instr (floatCompare instr format f) := by
  simp [Disciplined, floatCompare, fpUpdateExceptionFlags, under_bind,
    Progress.clean, Progress.permits, Progress.after]

theorem floatClassify_disciplined (f : BitVec format.width → BitVec 32) :
    Disciplined op instr (floatClassify instr format f) := by
  simp [Disciplined, floatClassify, under_bind, Progress.clean]

theorem flw_disciplined : Disciplined op instr (flw instr) := by
  simp [Disciplined, flw, under_bind, Progress.clean, Progress.permits,
    Progress.after]

theorem fsw_disciplined : Disciplined op instr (fsw instr) := by
  simp [Disciplined, fsw, fpReg, under_bind, Progress.clean,
    Progress.permits, Progress.after]

theorem fld_disciplined : Disciplined op instr (fld instr) := by
  simp [Disciplined, fld, under_bind, Progress.clean, Progress.permits,
    Progress.after]

theorem fsd_disciplined : Disciplined op instr (fsd instr) := by
  simp [Disciplined, fsd, fpReg, under_bind, Progress.clean,
    Progress.permits, Progress.after]

theorem fmvWX_disciplined : Disciplined op instr (fmvWX instr) := by
  simp [Disciplined, fmvWX, fpSetDirty, under_bind, Progress.clean,
    Progress.permits, Progress.after]

theorem fmvXW_disciplined : Disciplined op instr (fmvXW instr) := by
  simp [Disciplined, fmvXW, fpReg, under_bind, Progress.clean,
    Progress.permits, Progress.after]

end Exec

/-! ## The switch -/

open Exec in
/-- Every case of the switch is disciplined. -/
theorem execute_disciplined (cfg : Config) (instr : Instruction)
    {op : Mapping} (accepted : hasCase op = true) :
    Disciplined op instr (execute cfg instr op) := by
  have shapes : Shapes cfg instr fun op => Disciplined op instr := {
    raiseIllegal := undef_disciplined instr
    unary := unary_disciplined cfg instr
    binary := binary_disciplined cfg instr
    branch := fun condition _ => branch_disciplined cfg instr condition
    lui := lui_disciplined cfg instr
    auipc := auipc_disciplined cfg instr
    jal := jal_disciplined cfg instr
    jalr := jalr_disciplined cfg instr
    multiply := multiply_disciplined cfg instr
    mulhsu := mulhsu_disciplined cfg instr
    divide := divide_disciplined cfg instr
    load := fun bytes convert latency positive _ =>
      load_disciplined cfg instr bytes convert latency positive
    store := fun bytes _ => store_disciplined cfg instr bytes
    lrW := lrW_disciplined cfg instr
    scW := scW_disciplined cfg instr
    amo := fun operation _ => amo_disciplined instr operation
    csrrw := csrrw_disciplined cfg instr rfl
    csrModify := fun f csr => csrModify_disciplined cfg instr csr f
    csrrwi := csrrwi_disciplined cfg instr rfl
    csrModifyImmediate := fun f csr =>
      csrModifyImmediate_disciplined cfg instr csr f
    fence := fence_disciplined instr
    ecall := ecall_disciplined cfg instr
    ebreak := ebreak_disciplined instr
    wfi := wfi_disciplined instr
    sfenceVma := sfenceVma_disciplined instr
    uret := uret_disciplined instr
    sret := sret_disciplined instr
    mret := mret_disciplined instr
    custom3 := custom3_disciplined cfg instr
    floatBinary := fun format f _ => floatBinary_disciplined instr format f
    floatUnary := fun format f _ => floatUnary_disciplined instr format f
    floatFused := fun format f _ => floatFused_disciplined instr format f
    floatToInteger := fun format f _ =>
      floatToInteger_disciplined instr format f
    integerToFloat := fun format f _ =>
      integerToFloat_disciplined instr format f
    fcvtSD := fcvtSD_disciplined cfg instr
    fcvtDS := fcvtDS_disciplined cfg instr
    floatSelect := fun format _ _ _ _ _ _ _ =>
      floatSelect_disciplined instr format _ _ _ _ _ _
    signInject := fun format f _ => signInject_disciplined instr format f
    floatCompare := fun format f _ => floatCompare_disciplined instr format f
    floatClassify := fun format f _ => floatClassify_disciplined instr format f
    flw := flw_disciplined instr
    fsw := fsw_disciplined instr
    fld := fld_disciplined instr
    fsd := fsd_disciplined instr
    fmvWX := fmvWX_disciplined instr
    fmvXW := fmvXW_disciplined instr }
  exact execute_of_shapes shapes accepted

end Rv32

end RiscvVp
