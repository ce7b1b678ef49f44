import RiscvVp.Rv32.Delegation
import RiscvVp.Rv32.Transfer

/-!
# Which CSR accesses are refused

An access is illegal when the register is not implemented, belongs to a higher
level, is written although it is read-only, is a counter that the mode may not
read, or is `satp` in a supervisor mode whose virtual memory is trapped.  The
CSR instructions raise an illegal instruction trap on these, and on two kinds
of legal accesses: `satp` is refused above supervisor mode as well, and in the
timing build the set and clear instructions with a zero immediate are checked
as if they wrote.
-/

namespace RiscvVp

namespace Rv32

open Bits Csr Interaction

/-! ## Legal accesses -/

/-- What an instruction wants of a register. -/
structure CsrRequest where
  addr : BitVec 32
  reads : Bool
  writes : Bool

/-- An exchange reads only when there is a destination. -/
def readsCsr (op : Mapping) (instr : Instruction) : Bool :=
  match op with
  | .csrrw | .csrrwi => instr.rd != 0
  | _ => true

/-- A set or clear writes only when there is an operand. -/
def writesCsr (op : Mapping) (instr : Instruction) : Bool :=
  match op with
  | .csrrs | .csrrc => instr.rs1 != 0
  | .csrrsi | .csrrci => instr.zimm != 0
  | _ => true

def csrRequest (op : Mapping) (instr : Instruction) : CsrRequest where
  addr := instr.csr
  reads := readsCsr op instr
  writes := writesCsr op instr

/-- The address has a case of its own or a register in the table. -/
def isKnownCsr (addr : BitVec 32) : Bool :=
  match readAccess addr with
  | .default => (registerMapping addr).isSome
  | _ => true

/-- `SATP_ADDR` -/
def isSatp (addr : BitVec 32) : Bool := addr == 0x180

/-- The register is known and the extension it belongs to is present. -/
def Hart.implements (hart : Hart) (addr : BitVec 32) : Bool :=
  isKnownCsr addr && (!isFloatCsr addr || hart.hasExtension Misa.f) &&
    (csrLevel addr != supervisorMode || hart.hasExtension Misa.s) &&
    (csrLevel addr != userMode || hart.hasExtension Misa.u)

/-- The accesses that the architecture refuses. -/
def Hart.isIllegal (hart : Hart) (request : CsrRequest) : Bool :=
  !hart.implements request.addr ||
    decide (hart.prv < csrLevel request.addr) ||
    (request.writes && isReadOnly request.addr) ||
    (request.reads && isGuardedCounter request.addr &&
      !counterReadable hart request.addr) ||
    (isSatp request.addr && hart.sMode &&
      Mstatus.tvm.isSet (hart.csrs .mstatus))

/-- An illegal instruction trap that has changed no register. -/
def Refused (before : Hart) (outcome : Outcome Hart SimulationTrap Fatal Unit) :
    Prop :=
  ∃ mtval after, outcome = .trap ⟨.illegalInstr, mtval⟩ after ∧
    after.regs = before.regs ∧ after.fpRegs = before.fpRegs ∧
    after.csrs = before.csrs

/-- The instruction traps exactly when its access is illegal. -/
def AnswersAccess (cfg : Config) (decoded : Hart) : Prop :=
  (Machine.answering (perform cfg)
    (execute cfg decoded.instr decoded.op) decoded).All fun outcome =>
      if decoded.isIllegal (csrRequest decoded.op decoded.instr) then
        Refused decoded outcome
      else ∀ cause after, outcome = .trap cause after →
        cause.reason ≠ .illegalInstr

/-! ## What the accessors refuse -/

/-- `get_csr_value` traps. -/
def readRefused (hart : Hart) (addr : BitVec 32) : Bool :=
  (isGuardedCounter addr && !counterReadable hart addr) ||
    (isSatp addr && Mstatus.tvm.isSet (hart.csrs .mstatus)) ||
    !isKnownCsr addr

/-- `set_csr_value` traps. -/
def writeRefused (hart : Hart) (addr : BitVec 32) : Bool :=
  (isSatp addr && Mstatus.tvm.isSet (hart.csrs .mstatus)) ||
    !isKnownCsr addr

theorem isSatp_of_readAccess {addr : BitVec 32} :
    readAccess addr = .satp ↔ isSatp addr = true := by
  constructor
  · intro access
    unfold readAccess at access
    split at access
    case h_23 =>
      split at access
      · cases access
      split at access
      · cases access
      · cases access
    all_goals
      first
      | rfl
      | cases access
  · intro satp
    rw [eq_of_beq satp]
    rfl

theorem isSatp_of_writeAccess {addr : BitVec 32} :
    writeAccess addr = .satp ↔ isSatp addr = true := by
  constructor
  · intro access
    unfold writeAccess at access
    split at access
    case h_29 =>
      split at access
      · cases access
      split at access
      · cases access
      · cases access
    all_goals
      first
      | rfl
      | cases access
  · intro satp
    rw [eq_of_beq satp]
    rfl

/-- An unimplemented counter or a debug register has a case in both
switches. -/
theorem access_of_hardwired {addr : BitVec 32}
    (hardwired : (isAnyHpmcounter addr || isHardwiredDebug addr) = true) :
    readAccess addr ≠ .default ∧ writeAccess addr ≠ .default := by
  unfold readAccess writeAccess
  constructor
  · split
    case h_23 =>
      split
      · exact nofun
      next other =>
        rw [if_pos (by simpa [other] using hardwired)]
        exact nofun
    all_goals exact nofun
  · split
    case h_29 =>
      split
      · exact nofun
      next other =>
        rw [if_pos (by simpa [other] using hardwired)]
        exact nofun
    all_goals exact nofun

theorem isKnownCsr_of_readAccess {addr : BitVec 32}
    (access : readAccess addr ≠ .default) : isKnownCsr addr = true := by
  unfold isKnownCsr
  split
  · contradiction
  · rfl

/-- Both switches leave the same unknown addresses to the table. -/
theorem isKnownCsr_of_writeAccess {addr : BitVec 32}
    (access : writeAccess addr ≠ .default) : isKnownCsr addr = true := by
  by_cases hardwired : (isAnyHpmcounter addr || isHardwiredDebug addr) = true
  · exact isKnownCsr_of_readAccess (access_of_hardwired hardwired).1
  unfold writeAccess at access
  split at access
  case h_29 =>
    simp only [Bool.or_eq_true, not_or] at hardwired
    rw [if_neg hardwired.1, if_neg hardwired.2] at access
    contradiction
  all_goals rfl

theorem isKnownCsr_of_default {addr : BitVec 32}
    (access : writeAccess addr = .default) :
    isKnownCsr addr = (registerMapping addr).isSome := by
  by_cases hardwired : (isAnyHpmcounter addr || isHardwiredDebug addr) = true
  · exact absurd access (access_of_hardwired hardwired).2
  unfold isKnownCsr
  split
  · rfl
  next reading =>
    unfold readAccess at reading
    split at reading
    case h_23 =>
      simp only [Bool.or_eq_true, not_or] at hardwired
      rw [if_neg hardwired.1, if_neg hardwired.2] at reading
      contradiction
    all_goals
      first
      | rfl
      | cases access

@[simp]
theorem raiseIllegalInstruction_apply {α : Type} (hart : Hart) :
    (raiseIllegalInstruction : HartM α) hart =
      .ret (.trap ⟨.illegalInstr, hart.instr.setWidth 64⟩ hart) :=
  rfl

theorem validateCsrCounterReadAccessRights_apply (addr : BitVec 32)
    (hart : Hart) :
    validateCsrCounterReadAccessRights addr hart =
      if isGuardedCounter addr && !counterReadable hart addr then
        .ret (.trap ⟨.illegalInstr, hart.instr.setWidth 64⟩ hart)
      else .ret (.done () hart) := by
  cases denied : isGuardedCounter addr && !counterReadable hart addr <;>
    simp [validateCsrCounterReadAccessRights] <;> simpa using denied

theorem defaultRead32_apply (addr : BitVec 32) (hart : Hart) :
    defaultRead32 addr hart =
      match registerMapping addr with
      | some register => .ret (.done (hart.csrs register) hart)
      | none => .ret (.trap ⟨.illegalInstr, hart.instr.setWidth 64⟩ hart) := by
  unfold defaultRead32
  cases registerMapping addr <;> rfl

/-- A read traps and changes nothing, or completes and copies a counter. -/
theorem getCsrValue_all (cfg : Config) (addr : BitVec 32) (hart : Hart) :
    (getCsrValue cfg addr hart).All fun outcome =>
      if readRefused hart addr then
        outcome = .trap ⟨.illegalInstr, hart.instr.setWidth 64⟩ hart
      else ∃ value after, outcome = .done value after ∧
        after.csrs .mstatus = hart.csrs .mstatus := by
  unfold getCsrValue
  rw [Machine.bind_apply, validateCsrCounterReadAccessRights_apply]
  by_cases denied : (isGuardedCounter addr && !counterReadable hart addr) = true
  · rw [if_pos denied, Program.ret_bind, Machine.andThen_trap,
      Program.all_ret]
    simp [readRefused, denied]
  rw [if_neg denied, Program.ret_bind, Machine.andThen_done]
  rw [Bool.not_eq_true] at denied
  cases access : readAccess addr with
  | satp =>
      have satp := isSatp_of_readAccess.1 access
      have known : isKnownCsr addr = true :=
        isKnownCsr_of_readAccess (by simp [access])
      have mapped : registerMapping addr = some .satp := by
        rw [eq_of_beq satp]
        rfl
      cases tvm : Mstatus.tvm.isSet (hart.csrs .mstatus) <;>
        simp [readRefused, denied, tvm, known, satp, defaultRead32_apply,
          mapped]
  | default =>
      have other : isSatp addr = false :=
        Bool.eq_false_iff.2 fun satp => by
          cases (isSatp_of_readAccess.2 satp).symm.trans access
      cases mapped : registerMapping addr <;>
        simp [readRefused, denied, isKnownCsr, access, defaultRead32_apply,
          mapped, other]
  | _ =>
      have other : isSatp addr = false :=
        Bool.eq_false_iff.2 fun satp => by
          cases (isSatp_of_readAccess.2 satp).symm.trans access
      have known : isKnownCsr addr = true :=
        isKnownCsr_of_readAccess (by simp [access])
      simp [readRefused, denied, known, other, call, CsrTable.set64]

/-- A write traps and changes nothing, or completes. -/
theorem setCsrValue_all (addr value : BitVec 32) (hart : Hart) :
    (setCsrValue addr value hart).All fun outcome =>
      if writeRefused hart addr then
        outcome = .trap ⟨.illegalInstr, hart.instr.setWidth 64⟩ hart
      else ∃ after, outcome = .done () after := by
  unfold setCsrValue
  cases access : writeAccess addr with
  | satp =>
      have satp := isSatp_of_writeAccess.1 access
      have known : isKnownCsr addr = true :=
        isKnownCsr_of_writeAccess (by simp [access])
      cases tvm : Mstatus.tvm.isSet (hart.csrs .mstatus) <;>
        simp [writeRefused, tvm, known, satp, writeCsr]
  | default =>
      have other : isSatp addr = false :=
        Bool.eq_false_iff.2 fun satp => by
          cases (isSatp_of_writeAccess.2 satp).symm.trans access
      have known := isKnownCsr_of_default access
      cases mapped : registerMapping addr <;>
        simp [writeRefused, known, mapped, other]
  | _ =>
      have other : isSatp addr = false :=
        Bool.eq_false_iff.2 fun satp => by
          cases (isSatp_of_writeAccess.2 satp).symm.trans access
      have known : isKnownCsr addr = true :=
        isKnownCsr_of_writeAccess (by simp [access])
      simp [writeRefused, known, other, writeCsr]

/-! ## What the instructions refuse -/

/-- The check of the timing build takes every immediate for a write. -/
def checkedAsWrite (cfg : Config) (op : Mapping) (instr : Instruction) :
    Bool :=
  match op with
  | .csrrsi | .csrrci => cfg.pipelineTiming || instr.zimm != 0
  | _ => writesCsr op instr

/-- The instruction traps. -/
def accessRefused (cfg : Config) (hart : Hart) (op : Mapping)
    (instr : Instruction) : Bool :=
  (isFloatCsr instr.csr && !hart.hasExtension Misa.f ||
    invalidCsrAccess hart instr.csr (checkedAsWrite cfg op instr)) ||
    (readsCsr op instr && readRefused hart instr.csr ||
      writesCsr op instr && writeRefused hart instr.csr)

/-- How an access may end. -/
def EndsAccess (before : Hart) (refused : Bool)
    (outcome : Outcome Hart SimulationTrap Fatal Unit) : Prop :=
  if refused then Refused before outcome
  else ∀ cause after, outcome ≠ .trap cause after

section Bodies

variable {cfg : Config} {before : Hart}

theorem endsAccess_refused {mtval : BitVec 64} {after : Hart}
    (regs : after.regs = before.regs) (fpRegs : after.fpRegs = before.fpRegs)
    (csrs : after.csrs = before.csrs) :
    EndsAccess before true (.trap ⟨.illegalInstr, mtval⟩ after) :=
  ⟨mtval, after, rfl, regs, fpRegs, csrs⟩

@[simp]
theorem endsAccess_done {after : Hart} :
    EndsAccess before false (.done () after) := by
  simp [EndsAccess]

@[simp]
theorem endsAccess_abort {reason : Fatal} :
    EndsAccess before false (.abort reason) := by
  simp [EndsAccess]

theorem answering_act (action : Action) (hart : Hart) :
    Machine.answering (perform cfg) (Body.act action) hart =
      (perform cfg action hart >>= Machine.andThen Pure.pure) :=
  rfl

theorem answering_act_bind {α : Type} (action : Action)
    (next : action.Answer → Body α) (hart : Hart) :
    Machine.answering (perform cfg) (Body.act action >>= next) hart =
      (perform cfg action hart >>= Machine.andThen fun answer =>
        Machine.answering (perform cfg) (next answer)) :=
  rfl

/-- The check at the head of every CSR instruction. -/
theorem check_endsAccess (addr : BitVec 32) (isWrite : Bool)
    (instr : Instruction) {rest : Body Unit} {refused : Bool}
    (continues : (Machine.answering (perform cfg) rest before).All
      (EndsAccess before refused)) :
    (Machine.answering (perform cfg)
      (Exec.isInvalidCsrAccess addr isWrite >>= fun invalid =>
        if invalid then Body.raiseIllegal instr else rest) before).All
      (EndsAccess before
        (isFloatCsr addr && !before.hasExtension Misa.f ||
          invalidCsrAccess before addr isWrite || refused)) := by
  unfold Exec.isInvalidCsrAccess
  rw [answering_act_bind, perform, isInvalidCsrAccess_apply]
  cases floating : isFloatCsr addr && !before.hasExtension Misa.f with
  | true => exact endsAccess_refused rfl rfl rfl
  | false =>
      cases invalid : invalidCsrAccess before addr isWrite with
      | true => exact endsAccess_refused rfl rfl rfl
      | false => exact continues

/-- A read that passes lets the write pass. -/
theorem writeRefused_of_readRefused {hart after : Hart} {addr : BitVec 32}
    (passes : readRefused hart addr = false)
    (mstatus : after.csrs .mstatus = hart.csrs .mstatus) :
    writeRefused after addr = false := by
  unfold readRefused at passes
  unfold writeRefused
  rw [mstatus]
  simp_all

theorem writeRefused_of_csrs {hart after : Hart} {addr : BitVec 32}
    (passes : writeRefused hart addr = false)
    (csrs : after.csrs = hart.csrs) : writeRefused after addr = false := by
  unfold writeRefused at passes ⊢
  rw [csrs]
  exact passes

section Accessors

variable (pipeline : HiFive1PipelineTiming) (addr : BitVec 32)

theorem get_endsAccess {next : BitVec 32 → Body Unit} {write : Bool}
    (continues : ∀ value after, writeRefused after addr = false →
      (Machine.answering (perform cfg) (next value) after).All
        (EndsAccess before false)) :
    (Machine.answering (perform cfg) (Exec.getCsrValue addr >>= next)
      { before with pipeline := pipeline }).All
      (EndsAccess before
        (readRefused before addr || write && writeRefused before addr)) := by
  unfold Exec.getCsrValue
  rw [answering_act_bind, perform, Program.all_bind]
  refine (getCsrValue_all cfg addr _).mono fun outcome ends => ?_
  cases refused : readRefused before addr with
  | true =>
      rw [show readRefused { before with pipeline := pipeline } addr = true
        from refused, if_pos rfl] at ends
      rw [ends]
      exact endsAccess_refused rfl rfl rfl
  | false =>
      rw [show readRefused { before with pipeline := pipeline } addr = false
        from refused] at ends
      obtain ⟨value, after, rfl, mstatus⟩ := ends
      have passes : writeRefused before addr = false :=
        writeRefused_of_readRefused refused rfl
      rw [passes, Bool.and_false]
      exact continues value after (writeRefused_of_readRefused refused mstatus)

theorem set_endsAccess (value : BitVec 32) :
    (Machine.answering (perform cfg) (Exec.setCsrValue addr value)
      { before with pipeline := pipeline }).All
      (EndsAccess before (writeRefused before addr)) := by
  unfold Exec.setCsrValue
  rw [answering_act, perform, Program.all_bind]
  refine (setCsrValue_all addr value _).mono fun outcome ends => ?_
  cases refused : writeRefused before addr with
  | true =>
      rw [show writeRefused { before with pipeline := pipeline } addr = true
        from refused, if_pos rfl] at ends
      rw [ends]
      exact endsAccess_refused rfl rfl rfl
  | false =>
      rw [show writeRefused { before with pipeline := pipeline } addr = false
        from refused] at ends
      obtain ⟨after, rfl⟩ := ends
      exact endsAccess_done

end Accessors

theorem set_passes {addr : BitVec 32} {hart : Hart} (value : BitVec 32)
    (passes : writeRefused hart addr = false) :
    (Machine.answering (perform cfg) (Exec.setCsrValue addr value) hart).All
      (EndsAccess before false) := by
  refine (@set_endsAccess cfg hart hart.pipeline addr value).mono
    fun outcome ends => ?_
  rw [passes] at ends
  exact ends

theorem doCsr_apply (rd : BitVec 5) (hart : Hart) :
    Machine.answering (perform cfg) (Exec.doCsr rd) hart = .ret
      (match hart.pipeline.doCsr rd with
      | some pipeline => .done () { hart with pipeline := pipeline }
      | none => .abort .registerAlreadyPending) := by
  unfold Exec.doCsr
  rw [answering_act, perform, advancePipeline, Machine.bind_apply,
    Machine.reads_apply, Program.ret_bind, Machine.andThen_done,
    PipelineEvent.apply]
  cases hart.pipeline.doCsr rd <;> rfl

/-- A way of writing the destination before the rest of a body, which leaves
the control registers alone. -/
def StoresResult (cfg : Config) (before : Hart)
    (store : BitVec 32 → Body Unit → Body Unit) : Prop :=
  ∀ value rest hart,
    (∀ after, after.csrs = hart.csrs →
      (Machine.answering (perform cfg) rest after).All
        (EndsAccess before false)) →
    (Machine.answering (perform cfg) (store value rest) hart).All
      (EndsAccess before false)

theorem write_storesResult (rd : BitVec 5) :
    StoresResult cfg before fun value rest =>
      Body.write rd value >>= fun _ => Exec.doCsr rd >>= fun _ => rest := by
  intro value rest hart continues
  rw [Machine.answering_bind, Machine.bind_apply, write_apply,
    Program.ret_bind, Machine.andThen_done]
  rw [Machine.answering_bind, Machine.bind_apply, doCsr_apply,
    Program.ret_bind]
  split
  · exact continues _ rfl
  · exact endsAccess_abort

theorem setReg_storesResult (rd : BitVec 5) :
    StoresResult cfg before fun value rest =>
      Body.setReg rd value >>= fun _ => rest := by
  intro value rest hart continues
  rw [Machine.answering_bind, Machine.bind_apply, setReg_apply,
    Program.ret_bind, Machine.andThen_done]
  exact continues _ rfl

section Shapes

variable {store : BitVec 32 → Body Unit → Body Unit}
  (stores : StoresResult cfg before store)
  (pipeline : HiFive1PipelineTiming) (addr : BitVec 32) (rd : BitVec 5)

include stores

/-- An exchange, after its check. -/
theorem exchange_endsAccess (value : BitVec 32) :
    (Machine.answering (perform cfg)
      (if rd ≠ 0 then
        Exec.getCsrValue addr >>= fun csrVal =>
          store csrVal (Exec.setCsrValue addr value)
      else Exec.setCsrValue addr value)
      { before with pipeline := pipeline }).All
      (EndsAccess before
        (rd != 0 && readRefused before addr ||
          true && writeRefused before addr)) := by
  by_cases wanted : rd = 0
  · rw [if_neg (not_not.2 wanted), bne_eq_false_iff_eq.2 wanted]
    exact set_endsAccess pipeline addr value
  · rw [if_pos wanted, bne_iff_ne.2 wanted]
    exact get_endsAccess pipeline addr fun csrVal after passes =>
      stores _ _ _ fun last csrs =>
        set_passes value (writeRefused_of_csrs passes csrs)

/-- A set or clear, after its check. -/
theorem modify_endsAccess {width : Nat} (operand : BitVec width)
    (f : BitVec 32 → BitVec 32) :
    (Machine.answering (perform cfg)
      (Exec.getCsrValue addr >>= fun csrVal =>
        if rd ≠ 0 then
          store csrVal
            (if operand ≠ 0 then Exec.setCsrValue addr (f csrVal)
            else pure ())
        else if operand ≠ 0 then Exec.setCsrValue addr (f csrVal)
        else pure ())
      { before with pipeline := pipeline }).All
      (EndsAccess before
        (true && readRefused before addr ||
          operand != 0 && writeRefused before addr)) := by
  have ends (csrVal : BitVec 32) (hart : Hart)
      (passes : writeRefused hart addr = false) :
      (Machine.answering (perform cfg)
        (if operand ≠ 0 then Exec.setCsrValue addr (f csrVal) else pure ())
        hart).All (EndsAccess before false) := by
    split
    · exact set_passes (f csrVal) passes
    · exact endsAccess_done
  refine get_endsAccess pipeline addr fun csrVal after passes => ?_
  split
  · exact stores _ _ _ fun last csrs =>
      ends csrVal last (writeRefused_of_csrs passes csrs)
  · exact ends csrVal after passes

end Shapes

variable (cfg before) (instr : Instruction)

theorem csrrw_endsAccess :
    (Machine.answering (perform cfg) (Exec.csrrw cfg instr) before).All
      (EndsAccess before (accessRefused cfg before .csrrw instr)) := by
  unfold Exec.csrrw
  split
  · refine check_endsAccess instr.csr true instr ?_
    rw [Machine.answering_bind, Machine.bind_apply, read_apply,
      Program.ret_bind, Machine.andThen_done]
    exact exchange_endsAccess (write_storesResult instr.rd) _ _ _ _
  · refine check_endsAccess instr.csr true instr ?_
    rw [Machine.answering_bind, Machine.bind_apply, reg_apply,
      Program.ret_bind, Machine.andThen_done]
    exact exchange_endsAccess (setReg_storesResult instr.rd) _ _ _ _

theorem csrrwi_endsAccess :
    (Machine.answering (perform cfg) (Exec.csrrwi cfg instr) before).All
      (EndsAccess before (accessRefused cfg before .csrrwi instr)) := by
  unfold Exec.csrrwi
  split
  · refine check_endsAccess instr.csr true instr ?_
    exact exchange_endsAccess (write_storesResult instr.rd) _ _ _ _
  · refine check_endsAccess instr.csr true instr ?_
    exact exchange_endsAccess (setReg_storesResult instr.rd) _ _ _ _

theorem csrModify_endsAccess (f : BitVec 32 → BitVec 32 → BitVec 32) :
    (Machine.answering (perform cfg) (Exec.csrModify cfg instr f) before).All
      (EndsAccess before (accessRefused cfg before .csrrs instr)) := by
  unfold Exec.csrModify
  split
  · refine check_endsAccess instr.csr (instr.rs1 != 0) instr ?_
    rw [Machine.answering_bind, Machine.bind_apply, read_apply,
      Program.ret_bind, Machine.andThen_done]
    exact modify_endsAccess (write_storesResult instr.rd) _ _ instr.rd
      instr.rs1 fun csrVal => f csrVal _
  · refine check_endsAccess instr.csr (instr.rs1 != 0) instr ?_
    rw [Machine.answering_bind, Machine.bind_apply, reg_apply,
      Program.ret_bind, Machine.andThen_done]
    exact modify_endsAccess (setReg_storesResult instr.rd) _ _ instr.rd
      instr.rs1 fun csrVal => f csrVal _

theorem csrModifyImmediate_endsAccess
    (f : BitVec 32 → BitVec 32 → BitVec 32) :
    (Machine.answering (perform cfg)
      (Exec.csrModifyImmediate cfg instr f) before).All
      (EndsAccess before (accessRefused cfg before .csrrsi instr)) := by
  unfold Exec.csrModifyImmediate accessRefused checkedAsWrite
  dsimp only
  split
  next timing =>
    rw [timing, Bool.true_or]
    refine check_endsAccess instr.csr true instr ?_
    exact modify_endsAccess (write_storesResult instr.rd) _ _ instr.rd
      instr.zimm fun csrVal => f csrVal _
  next plain =>
    rw [Bool.not_eq_true] at plain
    rw [plain, Bool.false_or]
    refine check_endsAccess instr.csr (instr.zimm != 0) instr ?_
    exact modify_endsAccess (setReg_storesResult instr.rd) _ _ instr.rd
      instr.zimm fun csrVal => f csrVal _

/-- Every CSR instruction traps exactly when it refuses the access. -/
theorem execute_endsAccess {op : Mapping} (csr : isCsr op = true) :
    (Machine.answering (perform cfg) (execute cfg instr op) before).All
      (EndsAccess before (accessRefused cfg before op instr)) := by
  cases op with
  | csrrw => exact csrrw_endsAccess cfg before instr
  | csrrs => exact csrModify_endsAccess cfg before instr _
  | csrrc => exact csrModify_endsAccess cfg before instr _
  | csrrwi => exact csrrwi_endsAccess cfg before instr
  | csrrsi =>
      exact csrModifyImmediate_endsAccess cfg before instr
        fun csr value => csr ||| value
  | csrrci =>
      exact csrModifyImmediate_endsAccess cfg before instr
        fun csr value => csr &&& ~~~value
  | _ => cases csr

end Bodies

/-! ## The two kinds of legal accesses that are refused -/

/-- `satp` above supervisor mode, with its virtual memory trapped. -/
def Hart.trapsSatp (hart : Hart) (request : CsrRequest) : Bool :=
  isSatp request.addr && Mstatus.tvm.isSet (hart.csrs .mstatus) &&
    decide (supervisorMode < hart.prv) && hart.hasExtension Misa.s

/-- The timing build takes the immediate for a write to a register that is
only read. -/
def Hart.mistakesForWrite (cfg : Config) (hart : Hart) (op : Mapping)
    (instr : Instruction) : Bool :=
  cfg.pipelineTiming && (op == .csrrsi || op == .csrrci) &&
    instr.zimm == 0 && isReadOnly instr.csr && hart.implements instr.csr &&
    decide (csrLevel instr.csr ≤ hart.prv) &&
    (!isGuardedCounter instr.csr || counterReadable hart instr.csr)

/-- Every CSR instruction reads or writes. -/
theorem reads_or_writes {op : Mapping} (csr : isCsr op = true)
    (instr : Instruction) :
    (readsCsr op instr || writesCsr op instr) = true := by
  cases op with
  | csrrw | csrrwi => exact Bool.or_true _
  | csrrs | csrrc | csrrsi | csrrci => exact Bool.true_or _
  | _ => cases csr

/-- What the timing build takes for a write, and is not, reads. -/
theorem checkedAsWrite_eq (cfg : Config) {op : Mapping}
    (csr : isCsr op = true) (instr : Instruction) :
    checkedAsWrite cfg op instr =
      (writesCsr op instr ||
        cfg.pipelineTiming && (op == .csrrsi || op == .csrrci) &&
          instr.zimm == 0) := by
  cases op with
  | csrrw | csrrwi | csrrs | csrrc => simp [checkedAsWrite]
  | csrrsi | csrrci =>
      unfold checkedAsWrite writesCsr bne
      cases cfg.pipelineTiming <;> cases instr.zimm == 0 <;> rfl
  | _ => cases csr

theorem facts_of_isSatp {addr : BitVec 32} (satp : isSatp addr = true) :
    csrLevel addr = supervisorMode ∧ isReadOnly addr = false ∧
      isGuardedCounter addr = false ∧ isFloatCsr addr = false ∧
      isKnownCsr addr = true := by
  rw [eq_of_beq satp]
  decide

/-- The accesses that are refused are the illegal ones and two kinds of
others. -/
theorem accessRefused_eq (cfg : Config) (hart : Hart) {op : Mapping}
    (csr : isCsr op = true) (instr : Instruction) :
    accessRefused cfg hart op instr =
      (hart.isIllegal (csrRequest op instr) ||
        hart.trapsSatp (csrRequest op instr) ||
        hart.mistakesForWrite cfg op instr) := by
  have some := reads_or_writes csr instr
  have addr : (csrRequest op instr).addr = instr.csr := rfl
  have level : (0x300 &&& instr.csr) >>> 8 = csrLevel instr.csr := rfl
  unfold accessRefused Hart.isIllegal Hart.trapsSatp Hart.mistakesForWrite
    invalidCsrAccess readRefused writeRefused
  rw [checkedAsWrite_eq cfg csr, addr, level]
  unfold csrRequest Hart.implements Hart.sMode
  dsimp only
  have modes : hart.prv < supervisorMode ∨ hart.prv = supervisorMode ∨
      supervisorMode < hart.prv := by
    unfold supervisorMode
    bv_omega
  have immediate : (op == .csrrsi || op == .csrrci) = true →
      readsCsr op instr = true := by
    intro immediate
    cases op <;> first | rfl | cases immediate
  clear addr level
  generalize Mstatus.tvm.isSet (hart.csrs .mstatus) = trapped at *
  generalize (op == .csrrsi || op == .csrrci) = isImmediate at *
  generalize (instr.zimm == 0) = zero at *
  cases here : isSatp instr.csr with
  | false =>
      by_cases below : hart.prv < csrLevel instr.csr
      · simp [below]
      · have above : csrLevel instr.csr ≤ hart.prv := BitVec.not_lt.1 below
        simp only [below, above, decide_true, decide_false]
        grind -ext
  | true =>
      obtain ⟨isSupervisor, readOnly, unguarded, integer, known⟩ :=
        facts_of_isSatp here
      rw [isSupervisor, readOnly, unguarded, integer, known]
      rcases modes with below | same | above
      · simp [below]
      · simp [same]
        grind
      · have reaches : supervisorMode ≤ hart.prv := by bv_omega
        have notBelow : ¬ hart.prv < supervisorMode := by bv_omega
        simp [above, reaches, notBelow]
        grind

/-- The accesses of the two other kinds are legal. -/
theorem isIllegal_of_trapsSatp (hart : Hart) {request : CsrRequest}
    (traps : hart.trapsSatp request = true) :
    hart.isIllegal request = false := by
  unfold Hart.trapsSatp at traps
  simp only [Bool.and_eq_true, decide_eq_true_eq] at traps
  obtain ⟨⟨⟨satp, tvm⟩, above⟩, present⟩ := traps
  obtain ⟨level, readOnly, unguarded, integer, known⟩ := facts_of_isSatp satp
  have notBelow : ¬ hart.prv < supervisorMode := by bv_omega
  have other : (hart.prv == supervisorMode) = false :=
    beq_false_of_ne fun same => by
      rw [same] at above
      exact absurd above (by decide)
  have lower : (supervisorMode == userMode) = false := by decide
  simp [Hart.isIllegal, Hart.implements, Hart.sMode, level, readOnly,
    unguarded, integer, known, present, notBelow, other, lower, bne]

theorem isIllegal_of_mistakesForWrite (cfg : Config) (hart : Hart)
    {op : Mapping} {instr : Instruction}
    (mistakes : hart.mistakesForWrite cfg op instr = true) :
    hart.isIllegal (csrRequest op instr) = false := by
  unfold Hart.mistakesForWrite at mistakes
  simp only [Bool.and_eq_true, decide_eq_true_eq] at mistakes
  obtain ⟨⟨⟨⟨⟨⟨-, immediate⟩, zero⟩, readOnly⟩, present⟩, level⟩,
    counter⟩ := mistakes
  have silent : writesCsr op instr = false := by
    have zero : instr.zimm = 0 := eq_of_beq zero
    cases op <;> first | (simp [writesCsr, zero]; done) | cases immediate
  have other : isSatp instr.csr = false :=
    Bool.eq_false_iff.2 fun satp => by
      rw [(facts_of_isSatp satp).2.1] at readOnly
      cases readOnly
  have reached : ¬ hart.prv < csrLevel instr.csr := BitVec.not_lt.2 level
  have readable : (isGuardedCounter instr.csr &&
      !counterReadable hart instr.csr) = false := by
    revert counter
    cases isGuardedCounter instr.csr <;>
      cases counterReadable hart instr.csr <;> simp
  simp only [Hart.isIllegal, csrRequest, present, silent, other, reached,
    Bool.and_assoc, readable]
  simp

/-- A program ends somewhere. -/
theorem exists_outcome {α : Type} (program : Program Reply α) :
    ∃ result, ∀ property, program.All property → property result :=
  ⟨(program.run Platform.handle (Platform.ofWords [])).1,
    fun _ holds => holds.run Platform.handle _⟩

/-- A CSR instruction traps exactly on illegal accesses, unless it accesses
`satp` above supervisor mode while virtual memory is trapped, or the timing
build mistakes its zero immediate for a write. -/
theorem answersAccess_iff (cfg : Config) (decoded : Hart)
    (csr : isCsr decoded.op = true) :
    AnswersAccess cfg decoded ↔
      decoded.trapsSatp (csrRequest decoded.op decoded.instr) = false ∧
        decoded.mistakesForWrite cfg decoded.op decoded.instr = false := by
  have ends := execute_endsAccess cfg decoded decoded.instr csr
  rw [accessRefused_eq cfg decoded csr, Bool.or_assoc] at ends
  rw [← Bool.or_eq_false_iff]
  unfold AnswersAccess
  cases others : decoded.trapsSatp (csrRequest decoded.op decoded.instr) ||
      decoded.mistakesForWrite cfg decoded.op decoded.instr with
  | true =>
      have legal : decoded.isIllegal
          (csrRequest decoded.op decoded.instr) = false := by
        rcases Bool.or_eq_true_iff.1 others with traps | mistakes
        · exact isIllegal_of_trapsSatp decoded traps
        · exact isIllegal_of_mistakesForWrite cfg decoded mistakes
      rw [legal, others] at ends
      refine iff_of_false (fun answers => ?_) nofun
      obtain ⟨outcome, holds⟩ := exists_outcome (Machine.answering
        (perform cfg) (execute cfg decoded.instr decoded.op) decoded)
      obtain ⟨mtval, after, ended, -⟩ := holds _ ends
      have contradiction := holds _ answers
      rw [legal] at contradiction
      exact contradiction _ _ ended rfl
  | false =>
      rw [others, Bool.or_false] at ends
      refine iff_of_true (ends.mono fun outcome holds => ?_) rfl
      unfold EndsAccess at holds
      split at holds
      next illegal =>
        rw [if_pos illegal]
        exact holds
      next legal =>
        rw [if_neg legal]
        exact fun cause after ended _ => holds cause after ended

/-- Machine mode reads `satp` into `t0` while virtual memory is trapped. -/
def readSatp : Hart :=
  { Hart.reset 0 false 0 0 with
    csrs := (CsrTable.reset 0 false).set .mstatus 0x00100000
    instr := 0x180022f3
    op := .csrrs }

/-- Machine mode reads `mstatus` into `t0`. -/
def readMstatus : Hart := { readSatp with instr := 0x300022f3 }

theorem answersAccess_readMstatus :
    AnswersAccess Platform.config readMstatus :=
  (answersAccess_iff Platform.config readMstatus rfl).2
    ⟨by decide, by decide⟩

theorem not_answersAccess : ¬ AnswersAccess Platform.config readSatp := by
  intro answers
  have holds := Program.All.run answers Platform.handle (Platform.ofWords [])
  rw [if_neg (by decide)] at holds
  exact holds _ _ rfl rfl

end Rv32

end RiscvVp
