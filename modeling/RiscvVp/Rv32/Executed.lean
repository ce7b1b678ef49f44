import RiscvVp.Rv32.CsrWrite
import RiscvVp.Rv32.Discipline
import RiscvVp.Rv32.Steady

/-!
# What an instruction may change

An instruction that is not a return from a trap handler leaves the privilege
level, the address of the instruction and the hart's number alone, sets no
bit outside the nine interrupts in `mie` and `mip`, and changes `mpp` only
when it is a CSR instruction at the address of `mstatus`.

The proof carries what the discipline of the bodies and the steadiness of the
actions say about one action along the body.
-/

namespace RiscvVp

namespace Rv32

open Bits Csr Interaction

/-- The instruction is a CSR instruction at the address of `mstatus`. -/
def addressesMstatus (op : Mapping) (instr : Instruction) : Prop :=
  isCsr op = true ∧ instr.csr = 0x300

/-- What an instruction other than a return keeps. -/
structure Executed (op : Mapping) (instr : Instruction)
    (before after : Hart) : Prop where
  prv : after.prv = before.prv
  lastPc : after.lastPc = before.lastPc
  hartId : after.hartId = before.hartId
  mie : Within mieMask (before.csrs .mie) → Within mieMask (after.csrs .mie)
  mip : Within mieMask (before.csrs .mip) → Within mieMask (after.csrs .mip)
  mpp : ¬ addressesMstatus op instr →
    Mstatus.mpp.get (after.csrs .mstatus) =
      Mstatus.mpp.get (before.csrs .mstatus)

namespace Executed

variable {op : Mapping} {instr : Instruction}

theorem refl (hart : Hart) : Executed op instr hart hart where
  prv := rfl
  lastPc := rfl
  hartId := rfl
  mie within := within
  mip within := within
  mpp _ := rfl

theorem trans {first second third : Hart}
    (left : Executed op instr first second)
    (right : Executed op instr second third) :
    Executed op instr first third where
  prv := right.prv.trans left.prv
  lastPc := right.lastPc.trans left.lastPc
  hartId := right.hartId.trans left.hartId
  mie within := right.mie (left.mie within)
  mip within := right.mip (left.mip within)
  mpp other := (right.mpp other).trans (left.mpp other)

/-- A field that a mask leaves out is determined by the rest. -/
theorem get_eq_of_and_not {field : BitField 32} {free first second : BitVec 32}
    (outside : field.get free = 0#(field.len))
    (rest : first &&& ~~~free = second &&& ~~~free) :
    field.get first = field.get second := by
  have same := congrArg field.get rest
  rw [BitField.get_and, BitField.get_and, BitField.get_not, outside] at same
  simpa using same

theorem of_steady {before after : Hart} (steady : Steady before after) :
    Executed op instr before after where
  prv := steady.prv
  lastPc := steady.lastPc
  hartId := steady.csr .mhartid rfl
  mie within := by rwa [steady.csr .mie rfl]
  mip within := by
    rw [within_iff] at within ⊢
    intro i bit
    by_cases driven : interruptMask.getLsbD i = true
    · exact (within_iff mieMask interruptMask).1 (by decide) i driven
    · have same := congrArg (·.getLsbD i) steady.mip
      have bounded : i < 32 := BitVec.lt_of_getLsbD bit
      simp only [BitVec.getLsbD_and, BitVec.getLsbD_not, bounded, driven,
        decide_true, Bool.not_false, Bool.and_true] at same
      exact within i (same ▸ bit)
  mpp _ := get_eq_of_and_not (by decide) steady.mstatus

theorem of_writes {addr value : BitVec 32} {before after : Hart}
    (writes : Writes addr value before after) (csr : isCsr op = true)
    (named : addr = instr.csr) (writable : isReadOnly addr = false) :
    Executed op instr before after where
  prv := writes.prv
  lastPc := writes.lastPc
  hartId := writes.mhartid writable
  mie within := writes.within_mieMask (.inl rfl) within
  mip within := writes.within_mieMask (.inr rfl) within
  mpp other := writes.mpp fun same => other ⟨csr, named ▸ same⟩

end Executed

/-- How an instruction may end the simulator, apart from its services. -/
def isExecutionAbort (prv : PrivilegeLevel) (reason : Fatal) : Prop :=
  reason = .oddPc ∨ reason = .softfloatFlags ∨
    (reason = .unknownPrivilegeLevel ∧ ¬ prv.isValid)

/-- Where a body stands, seen from the hart it started on. -/
structure Standing (op : Mapping) (instr : Instruction) (before : Hart)
    (progress : Progress) (hart : Hart) : Prop where
  executed : Executed op instr before hart
  prv : ∀ mode, progress.prv = some mode → mode = before.prv
  writable : ∀ addr, progress.csrChecked = some addr →
    isReadOnly addr = false

namespace Standing

variable {op : Mapping} {instr : Instruction} {before hart after : Hart}
  {progress : Progress}

/-- A step of the hart that the monitor takes no note of. -/
theorem steady (standing : Standing op instr before progress hart)
    (steady : Steady hart after) {progress' : Progress}
    (prv : progress'.prv = progress.prv)
    (csrChecked : progress'.csrChecked = progress.csrChecked) :
    Standing op instr before progress' after where
  executed := standing.executed.trans (.of_steady steady)
  prv mode read := standing.prv mode (prv ▸ read)
  writable addr checked := standing.writable addr (csrChecked ▸ checked)

end Standing

/-- What is known of an outcome of the body. -/
def ExecutedOutcome (guard : Guard) (op : Mapping) (instr : Instruction)
    (before : Hart) {α : Type}
    (outcome : Outcome Hart SimulationTrap Fatal α) : Prop :=
  (∀ after, outcome.state? = some after → Executed op instr before after) ∧
    ∀ reason, outcome = .abort reason →
      guard.aborts reason ∨ isExecutionAbort before.prv reason

namespace ExecutedOutcome

variable {guard : Guard} {op : Mapping} {instr : Instruction}
  {before after : Hart} {α : Type}

theorem done (value : α) (executed : Executed op instr before after) :
    ExecutedOutcome guard op instr before
      (.done value after : Outcome Hart SimulationTrap Fatal α) := by
  simpa [ExecutedOutcome] using executed

theorem trap (cause : SimulationTrap)
    (executed : Executed op instr before after) :
    ExecutedOutcome guard op instr before
      (.trap cause after : Outcome Hart SimulationTrap Fatal α) := by
  simpa [ExecutedOutcome] using executed

theorem abort {reason : Fatal}
    (listed : guard.aborts reason ∨ isExecutionAbort before.prv reason) :
    ExecutedOutcome guard op instr before
      (.abort reason : Outcome Hart SimulationTrap Fatal α) := by
  simpa [ExecutedOutcome] using listed

end ExecutedOutcome

theorem isInvalidCsrAccess_apply (addr : BitVec 32) (isWrite : Bool)
    (hart : Hart) :
    isInvalidCsrAccess addr isWrite hart =
      if isFloatCsr addr && !hart.hasExtension Misa.f then
        .ret (.trap ⟨.illegalInstr, hart.instr.setWidth 64⟩ hart)
      else .ret (.done (invalidCsrAccess hart addr isWrite) hart) := by
  cases floating : isFloatCsr addr && !hart.hasExtension Misa.f <;>
    simp [isInvalidCsrAccess, raiseIllegalInstruction] <;>
    simpa using floating

/-- A write access that is not invalid is not to a read-only register. -/
theorem isReadOnly_of_invalidCsrAccess {hart : Hart} {addr : BitVec 32}
    (valid : invalidCsrAccess hart addr true = false) :
    isReadOnly addr = false := by
  unfold invalidCsrAccess at valid
  simp only [Bool.true_and, Bool.or_eq_false_iff] at valid
  exact valid.1.1.1

attribute [local simp] perform

section Perform

variable (cfg : Config) (guard : Guard) {op : Mapping} {instr : Instruction}
  {before hart : Hart} {progress : Progress}

/-- One action of a body that is not a return. -/
theorem perform_standing (notReturn : returnMode op = none)
    (closed : ∀ hart, Executed op instr before hart → guard.pre hart)
    (standing : Standing op instr before progress hart) {action : Action}
    (permitted : progress.permits op instr action) :
    (perform cfg action hart).All fun outcome =>
      match outcome with
      | .done answer after =>
          Standing op instr before (progress.after action answer) after
      | .trap _ after => Executed op instr before after
      | .abort reason =>
          guard.aborts reason ∨ isExecutionAbort before.prv reason := by
  have plainly (plain : action.isPlain = true)
      (unnoticed : ∀ answer,
        (progress.after action answer).prv = progress.prv ∧
          (progress.after action answer).csrChecked = progress.csrChecked) :
      (perform cfg action hart).All fun outcome =>
        match outcome with
        | .done answer after =>
            Standing op instr before (progress.after action answer) after
        | .trap _ after => Executed op instr before after
        | .abort reason =>
            guard.aborts reason ∨ isExecutionAbort before.prv reason := by
    refine ((perform_framed cfg guard plain).framed hart
      (closed hart standing.executed)).mono fun outcome within => ?_
    cases outcome with
    | done answer after =>
        have steady := ((Frame.post_done _ _ _ _).1 within).1
        exact standing.steady steady (unnoticed answer).1 (unnoticed answer).2
    | trap cause after =>
        have steady := ((Frame.post_trap _ _ _ _).1 within).1
        exact standing.executed.trans (.of_steady steady)
    | abort reason => exact .inl ((Frame.post_abort _ _ _).1 within)
  cases action with
  | prv =>
      refine ⟨standing.executed, ?_, standing.writable⟩
      intro mode read
      cases read
      exact standing.executed.prv
  | isInvalidCsrAccess addr isWrite =>
      rw [perform, isInvalidCsrAccess_apply]
      split
      · exact standing.executed
      · refine ⟨standing.executed, ?_, ?_⟩
        · intro mode read
          refine standing.prv mode ?_
          rw [← read, Progress.after]
          split <;> rfl
        · intro addr' checked
          rw [Progress.after] at checked
          split at checked
          next valid =>
            cases checked
            rw [valid.1] at valid
            exact isReadOnly_of_invalidCsrAccess valid.2
          next => exact standing.writable addr' checked
  | setCsrValue addr value =>
      obtain ⟨_, csr, named, checked, _⟩ := permitted
      rcases setCsrValue_outcome addr value hart with
        ⟨after, equation, writes⟩ | ⟨trap, equation, _⟩
      · rw [perform, equation]
        exact ⟨standing.executed.trans <|
          .of_writes writes csr named (standing.writable addr checked),
          standing.prv, standing.writable⟩
      · rw [perform, equation]
        exact standing.executed
  | returnFromTrapHandler mode =>
      have returns := permitted.2
      rw [notReturn] at returns
      cases returns
  | fatal reason =>
      right
      rcases permitted with rfl | rfl | ⟨rfl, mode, read, invalid⟩
      · exact .inl rfl
      · exact .inr (.inl rfl)
      · exact .inr (.inr ⟨rfl, standing.prv mode read ▸ invalid⟩)
  | _ => exact plainly rfl fun _ => ⟨rfl, rfl⟩

/-- The body of an instruction that is not a return. -/
theorem execute_executed (accepted : hasCase op = true)
    (notReturn : returnMode op = none)
    (closed : ∀ hart, Executed op instr before hart → guard.pre hart) :
    (Machine.answering (perform cfg) (execute cfg instr op) before).All
      (ExecutedOutcome guard op instr before) := by
  rw [← Program.under_any _ fun _ => ExecutedOutcome guard op instr before]
  refine Machine.answering_under (perform cfg)
    (fun progress hart _ => Standing op instr before progress hart) ?_ (execute_disciplined cfg instr accepted) ⟨.refl before, nofun, nofun⟩ ?_
  · intro progress hart _ action standing permitted
    rw [Program.under_any]
    refine (perform_standing cfg guard notReturn closed standing permitted).mono
      fun outcome holds => ?_
    cases outcome with
    | done answer after => exact ⟨trivial, holds⟩
    | trap cause after => exact .trap cause holds
    | abort reason => exact .abort holds
  · intro _ hart _ result _ standing
    exact .done result standing.executed

end Perform

/-! ## Returns -/

/-- What `SRET` checks. -/
def Hart.sretLegal (hart : Hart) : Prop :=
  hart.hasExtension Misa.s = true ∧
    ¬ (hart.prv = supervisorMode ∧
      Mstatus.tsr.isSet (hart.csrs .mstatus) = true)

section Returns

variable (cfg : Config) (instr : Instruction) (hart : Hart)

theorem execute_mret :
    Machine.answering (perform cfg) (execute cfg instr .mret) hart =
      .ret (.done () (machineReturn hart)) := by
  simp [execute, Exec.mret, Body.act, Program.ask, perform,
    returnFromTrapHandler]

theorem execute_sret_of_legal (legal : hart.sretLegal) :
    Machine.answering (perform cfg) (execute cfg instr .sret) hart =
      .ret (.done () (supervisorReturn hart)) := by
  have passes : ¬ (Misa.has (hart.csrs .misa) Misa.s = false ∨
      hart.prv = supervisorMode ∧
        Mstatus.tsr.isSet (hart.csrs .mstatus) = true) := by
    rw [not_or]
    exact ⟨by simpa [Hart.hasExtension] using legal.1, legal.2⟩
  simp [execute, Exec.sret, Exec.hasExtension, Exec.mstatusIsSet, Body.prv,
    Body.csr, Body.act, Program.ask, perform, returnFromTrapHandler, passes]

theorem execute_sret_of_not_legal (illegal : ¬ hart.sretLegal) :
    Machine.answering (perform cfg) (execute cfg instr .sret) hart =
      .ret (.trap ⟨.illegalInstr, instr.setWidth 64⟩ hart) := by
  have fails : Misa.has (hart.csrs .misa) Misa.s = false ∨
      hart.prv = supervisorMode ∧
        Mstatus.tsr.isSet (hart.csrs .mstatus) = true := by
    rw [Hart.sretLegal, not_and_or, not_not] at illegal
    simpa [Hart.hasExtension] using illegal
  simp [execute, Exec.sret, Exec.hasExtension, Exec.mstatusIsSet, Body.prv,
    Body.csr, Body.act, Body.raiseIllegal, Body.raiseTrap, Program.ask,
    perform, fails]

theorem execute_uret :
    Machine.answering (perform cfg) (execute cfg instr .uret) hart =
      .ret (if hart.hasExtension Misa.u then .done () (userReturn hart)
        else .trap ⟨.illegalInstr, instr.setWidth 64⟩ hart) := by
  cases user : hart.hasExtension Misa.u <;>
    simp_all [Hart.hasExtension, execute, Exec.uret, Exec.hasExtension,
      Body.csr, Body.act, Body.raiseIllegal, Body.raiseTrap, Program.ask,
      perform, returnFromTrapHandler]

/-- The three returns. -/
theorem returnMode_cases {op : Mapping} {mode : PrivilegeLevel}
    (returns : returnMode op = some mode) :
    op = .uret ∨ op = .sret ∨ op = .mret := by
  unfold returnMode at returns
  split at returns
  · exact .inl rfl
  · exact .inr (.inl rfl)
  · exact .inr (.inr rfl)
  · cases returns

/-- An opcode without a case ends the simulator. -/
theorem execute_of_not_hasCase {op : Mapping} (unknown : hasCase op = false) :
    Machine.answering (perform cfg) (execute cfg instr op) hart =
      .ret (.abort .unknownOpcode) := by
  cases op
  case custom0 | custom1 | custom2 => rfl
  all_goals cases unknown

end Returns

end Rv32

end RiscvVp
