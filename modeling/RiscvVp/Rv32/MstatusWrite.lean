import Mathlib
import RiscvVp.Rv32.Executed

/-!
# The CSR instructions at `mstatus`

`mpp` is reached by software through one address.  What a CSR instruction
writes there is determined by the operand and the old word that its body has
read; a second monitor over the bodies follows these two values, so that the
written level is known from the state before the instruction.
-/

namespace RiscvVp

namespace Rv32

open Bits Csr Interaction

/-- The operand of a CSR instruction, from the value of `rs1`. -/
def csrOperand (op : Mapping) (instr : Instruction) (rs1Val : BitVec 32) :
    BitVec 32 :=
  match op with
  | .csrrwi | .csrrsi | .csrrci => instr.zimm
  | _ => rs1Val

/-- The word that a CSR instruction writes, from the old word. -/
def csrResult (op : Mapping) (old operand : BitVec 32) : BitVec 32 :=
  match op with
  | .csrrs | .csrrsi => old ||| operand
  | .csrrc | .csrrci => old &&& ~~~operand
  | _ => operand

/-- What a CSR instruction has read. -/
structure CsrProgress where
  checked : Bool := false
  rs1Val : Option (BitVec 32) := none
  old : Option (BitVec 32) := none
  committed : Bool := false
  finished : Bool := false

namespace CsrProgress

/-- The word that is written once these values have been read. -/
def determines (op : Mapping) (instr : Instruction) (progress : CsrProgress)
    (value : BitVec 32) : Prop :=
  ∀ rs1Val old, (∀ read, progress.rs1Val = some read → read = rs1Val) →
    (∀ read, progress.old = some read → read = old) →
      value = csrResult op old (csrOperand op instr rs1Val)

/-- What the body of a CSR instruction does. -/
def permits (op : Mapping) (instr : Instruction) (progress : CsrProgress) :
    Action → Prop
  | .reg regIdx =>
      progress.finished = false ∧ progress.committed = false ∧
        regIdx = instr.rs1
  | .isInvalidCsrAccess addr _ | .getCsrValue addr =>
      progress.finished = false ∧ addr = instr.csr
  | .setReg _ _ | .pipeline _ | .raiseTrap _ _ => progress.finished = false
  | .setCsrValue addr value =>
      progress.finished = false ∧ addr = instr.csr ∧
        progress.checked = true ∧ progress.determines op instr value
  | _ => False

def after (progress : CsrProgress) :
    (action : Action) → action.Answer → CsrProgress
  | .reg _, value => { progress with rs1Val := some value }
  | .isInvalidCsrAccess _ isWrite, isInvalid =>
      if isWrite ∧ isInvalid = false then { progress with checked := true }
      else progress
  | .getCsrValue _, value => { progress with old := some value }
  | .setReg _ _, _ => { progress with committed := true }
  | .setCsrValue _ _, _ => { progress with finished := true }
  | _, _ => progress

end CsrProgress

def csrDiscipline (op : Mapping) (instr : Instruction) :
    Monitor Action.Answer CsrProgress where
  requires := CsrProgress.permits op instr
  allows _ _ _ := True
  next := CsrProgress.after

/-- The body reads what determines the word it writes. -/
def CsrDisciplined (op : Mapping) (instr : Instruction) (body : Body Unit) :
    Prop :=
  body.Under (csrDiscipline op instr) {} fun _ _ => True

attribute [local simp] csrOperand csrResult CsrProgress.permits
  CsrProgress.after

section Bodies

open Body

variable {op : Mapping} {instr : Instruction} {progress : CsrProgress}

@[simp]
theorem under_csr_act {α : Type} (action : Action)
    (receive : action.Answer → α) (property : CsrProgress → α → Prop) :
    (act action receive).Under (csrDiscipline op instr) progress property ↔
      progress.permits op instr action ∧
        ∀ reply, property (progress.after action reply) (receive reply) := by
  simp [act, Program.ask, Program.under_call, csrDiscipline]

@[simp]
theorem under_csr_raiseIllegal {α : Type} (word : Instruction)
    (property : CsrProgress → α → Prop) :
    (raiseIllegal word).Under (csrDiscipline op instr) progress property ↔
      progress.finished = false := by
  rw [raiseIllegal, raiseTrap, Program.under_call]
  exact and_iff_left fun never => by cases never

@[simp]
theorem under_csr_ite (condition : Prop) [Decidable condition]
    (first second : Body Unit) (property : CsrProgress → Unit → Prop) :
    (if condition then first else second).Under (csrDiscipline op instr)
        progress property ↔
      (condition →
        first.Under (csrDiscipline op instr) progress property) ∧
      (¬ condition →
        second.Under (csrDiscipline op instr) progress property) := by
  by_cases holds : condition <;> simp [holds]

variable (cfg : Config)

theorem csrrw_csrDisciplined :
    CsrDisciplined .csrrw instr (Exec.csrrw cfg instr) := by
  simp [CsrDisciplined, Exec.csrrw, Exec.isInvalidCsrAccess,
    Exec.getCsrValue, Exec.setCsrValue, Exec.doCsr, Body.reg, Body.read,
    Body.accessRegister, Body.setReg, Body.write, Program.under_bind,
    CsrProgress.permits, CsrProgress.after, CsrProgress.determines,
    csrResult, csrOperand]

theorem csrModify_csrDisciplined (f : BitVec 32 → BitVec 32 → BitVec 32)
    (result : ∀ old rs1Val,
      f old rs1Val = csrResult op old (csrOperand op instr rs1Val)) :
    CsrDisciplined op instr (Exec.csrModify cfg instr f) := by
  by_cases writes : instr.rs1 = 0#5 <;>
    simp [CsrDisciplined, Exec.csrModify,
      Exec.isInvalidCsrAccess, Exec.getCsrValue, Exec.setCsrValue,
      Exec.doCsr, Body.reg, Body.read, Body.accessRegister, Body.setReg,
      Body.write, Program.under_bind, CsrProgress.permits,
      CsrProgress.after, CsrProgress.determines, result, writes]

theorem csrrwi_csrDisciplined :
    CsrDisciplined .csrrwi instr (Exec.csrrwi cfg instr) := by
  simp [CsrDisciplined, Exec.csrrwi, Exec.isInvalidCsrAccess,
    Exec.getCsrValue, Exec.setCsrValue, Exec.doCsr, Body.accessRegister,
    Body.setReg, Body.write, Program.under_bind, CsrProgress.permits,
    CsrProgress.after, CsrProgress.determines, csrResult, csrOperand]

theorem csrModifyImmediate_csrDisciplined (op : Mapping)
    (f : BitVec 32 → BitVec 32 → BitVec 32)
    (result : ∀ old rs1Val,
      f old instr.zimm = csrResult op old (csrOperand op instr rs1Val)) :
    CsrDisciplined op instr (Exec.csrModifyImmediate cfg instr f) := by
  by_cases writes : instr.zimm = 0#32 <;>
    simp [CsrDisciplined, Exec.csrModifyImmediate,
      Exec.isInvalidCsrAccess, Exec.getCsrValue, Exec.setCsrValue,
      Exec.doCsr, Body.accessRegister, Body.setReg, Body.write,
      Program.under_bind, CsrProgress.permits, CsrProgress.after,
      CsrProgress.determines, writes]
  exact ⟨fun _ reply rs1Val => result reply rs1Val,
    fun _ reply rs1Val => result reply rs1Val⟩

theorem execute_csrDisciplined (csr : isCsr op = true) :
    CsrDisciplined op instr (execute cfg instr op) := by
  unfold isCsr at csr
  split at csr
  · exact csrrw_csrDisciplined cfg
  · exact csrModify_csrDisciplined cfg _ fun _ _ => rfl
  · exact csrModify_csrDisciplined cfg _ fun _ _ => rfl
  · exact csrrwi_csrDisciplined cfg
  · exact csrModifyImmediate_csrDisciplined cfg .csrrsi _ fun _ _ => rfl
  · exact csrModifyImmediate_csrDisciplined cfg .csrrci _ fun _ _ => rfl
  · cases csr

end Bodies

/-! ## The effect -/

/-- The word that the instruction would write to `mstatus`. -/
def mstatusResult (op : Mapping) (instr : Instruction) (hart : Hart) :
    BitVec 32 :=
  csrResult op (hart.csrs .mstatus &&& mstatusMask)
    (csrOperand op instr (hart.regs instr.rs1))

/-- `mpp` is kept, or machine mode has written it. -/
def MppWritten (op : Mapping) (instr : Instruction) (before after : Hart) :
    Prop :=
  after.prv = before.prv ∧
    (Mstatus.mpp.get (after.csrs .mstatus) =
        Mstatus.mpp.get (before.csrs .mstatus) ∨
      ¬ before.prv < machineMode ∧
        Mstatus.mpp.get (after.csrs .mstatus) =
          Mstatus.mpp.get (mstatusResult op instr before))

/-- Where the body stands, seen from the hart it started on. -/
structure CsrStanding (op : Mapping) (instr : Instruction) (before : Hart)
    (progress : CsrProgress) (hart : Hart) : Prop where
  written : MppWritten op instr before hart
  csrs : progress.finished = false → hart.csrs = before.csrs
  regs : progress.committed = false → hart.regs = before.regs
  rs1Val : ∀ value, progress.rs1Val = some value →
    value = before.regs instr.rs1
  old : ∀ value, progress.old = some value →
    value = before.csrs .mstatus &&& mstatusMask
  checked : progress.checked = true → ¬ before.prv < machineMode

theorem getCsrValue_mstatus (cfg : Config) (hart : Hart) :
    getCsrValue cfg 0x300 hart =
      .ret (.done (hart.csrs .mstatus &&& mstatusMask) hart) :=
  rfl

theorem setCsrValue_mstatus (value : BitVec 32) (hart : Hart) :
    setCsrValue 0x300 value hart =
      .ret (.done () (hart.setCsr .mstatus
        (writeMasked (hart.csrs .mstatus) value mstatusMask))) :=
  rfl

theorem isInvalidCsrAccess_mstatus (isWrite : Bool) (hart : Hart) :
    isInvalidCsrAccess 0x300 isWrite hart =
      .ret (.done (decide (hart.prv < machineMode)) hart) := by
  have access : invalidCsrAccess hart 0x300 isWrite =
      decide (hart.prv < machineMode) := by
    change (isWrite && false || decide (hart.prv < machineMode) ||
      machineMode == supervisorMode && !hart.hasExtension Misa.s ||
      machineMode == userMode && !hart.hasExtension Misa.u) = _
    simp [beq_eq_decide]
  rw [isInvalidCsrAccess_apply, access]
  rfl

section Perform

variable {op : Mapping} {instr : Instruction} {before hart : Hart}
  {progress : CsrProgress}

/-- One action of the body of a CSR instruction at `mstatus`. -/
theorem perform_csrStanding (cfg : Config) (named : instr.csr = 0x300)
    (standing : CsrStanding op instr before progress hart) {action : Action}
    (permitted : progress.permits op instr action) :
    (perform cfg action hart).All fun outcome =>
      match outcome with
      | .done answer after =>
          CsrStanding op instr before (progress.after action answer) after
      | .trap _ after => MppWritten op instr before after
      | .abort reason => reason = .registerAlreadyPending := by
  cases action with
  | reg regIdx =>
      obtain ⟨_, uncommitted, rfl⟩ := permitted
      exact { standing with
        rs1Val := by
          rintro value ⟨⟩
          exact congrFun (standing.regs uncommitted) instr.rs1 }
  | setReg regIdx value =>
      exact { standing with regs := nofun }
  | raiseTrap reason mtval => exact standing.written
  | pipeline event =>
      change (advancePipeline event hart).All _
      unfold advancePipeline
      rw [Machine.all_bind, Machine.reads_apply, Program.all_ret]
      dsimp only
      cases event.apply hart.pipeline with
      | some pipeline => exact { standing with }
      | none => rfl
  | isInvalidCsrAccess addr isWrite =>
      obtain ⟨_, rfl⟩ := permitted
      rw [perform, named, isInvalidCsrAccess_mstatus]
      rw [Program.all_ret]
      dsimp only [CsrProgress.after]
      split
      next valid =>
        exact { standing with
          checked := fun _ => by
            rw [← standing.written.1]
            exact of_decide_eq_false valid.2 }
      next => exact standing
  | getCsrValue addr =>
      obtain ⟨unfinished, rfl⟩ := permitted
      rw [perform, named, getCsrValue_mstatus]
      exact { standing with
        old := by
          rintro value ⟨⟩
          rw [standing.csrs unfinished] }
  | setCsrValue addr value =>
      obtain ⟨unfinished, rfl, checked, determined⟩ := permitted
      rw [perform, named, setCsrValue_mstatus]
      have result : value = mstatusResult op instr before :=
        determined _ _ standing.rs1Val standing.old
      refine { standing with written := ⟨standing.written.1, .inr ?_⟩, csrs := nofun }
      refine ⟨standing.checked checked, ?_⟩
      rw [Hart.setCsr_csrs, CsrTable.set_same,
        BitField.get_writeMasked_of_mask (by decide), result]
  | _ => exact permitted.elim

/-- A CSR instruction at `mstatus` keeps `mpp`, or is executed in machine mode
and writes what it computes. -/
theorem execute_mstatus (cfg : Config) (csr : isCsr op = true)
    (named : instr.csr = 0x300) (before : Hart) :
    (Machine.answering (perform cfg) (execute cfg instr op) before).All
      fun outcome =>
        (∀ after, outcome.state? = some after →
          MppWritten op instr before after) ∧
        ∀ reason, outcome = .abort reason →
          reason = .registerAlreadyPending := by
  rw [← Program.under_any _ fun _ => _]
  refine Machine.answering_under (perform cfg)
    (fun progress hart _ => CsrStanding op instr before progress hart) ?_
    (execute_csrDisciplined cfg csr)
    ⟨⟨rfl, .inl rfl⟩, fun _ => rfl, fun _ => rfl, nofun, nofun, nofun⟩ ?_
  · intro progress hart _ action standing permitted
    rw [Program.under_any]
    refine (perform_csrStanding cfg named standing permitted).mono
      fun outcome holds => ?_
    cases outcome with
    | done answer after => exact ⟨trivial, holds⟩
    | trap cause after => simpa using holds
    | abort reason => simpa using holds
  · intro _ hart _ result _ standing
    simpa using standing.written

end Perform

end Rv32

end RiscvVp
