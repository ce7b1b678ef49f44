import Mathlib
import RiscvVp.Rv32.Interrupts

/-!
# Into a handler and back

Entering a handler saves the level, the program counter and the interrupt
enable of its mode, and the return instruction of the mode restores them unless
it is refused: `SRET` in supervisor mode while `TSR` is set, and `SRET` and
`URET` without the extension.  The saved level has two bits in machine mode and
one in supervisor mode, so the trip loses nothing as long as the entry does not
lower the level: always for an interrupt, and for a trap unless the hart is at
the reserved level and the trap is delegated.
-/

namespace RiscvVp

namespace Rv32

open Bits Csr Interaction

/-! ## The promise -/

/-- The fields of `mstatus` that an entry to a handler of the mode writes. -/
def statusFields (mode : PrivilegeLevel) : BitVec 32 :=
  if mode = machineMode then
    Mstatus.mie.mask ||| Mstatus.mpie.mask ||| Mstatus.mpp.mask
  else if mode = supervisorMode then
    Mstatus.sie.mask ||| Mstatus.spie.mask ||| Mstatus.spp.mask
  else Mstatus.uie.mask ||| Mstatus.upie.mask

/-- The hart is in the handler, and only the handler's registers have
changed. -/
structure EntersHandler (mode : PrivilegeLevel) (before entered : Hart) :
    Prop where
  prv : entered.prv = mode
  raises : before.prv ≤ entered.prv
  regs : entered.regs = before.regs
  fpRegs : entered.fpRegs = before.fpRegs
  csr : ∀ register, register ≠ (handlerOf mode).epc →
    register ≠ (handlerOf mode).cause → register ≠ (handlerOf mode).tval →
    register ≠ .mstatus → entered.csrs register = before.csrs register
  mstatus : entered.csrs .mstatus &&& ~~~statusFields mode =
    before.csrs .mstatus &&& ~~~statusFields mode

/-- The handler is at its level and has not written the registers that its
return reads. -/
structure Undisturbed (mode : PrivilegeLevel) (entered handler : Hart) :
    Prop where
  prv : handler.prv = mode
  misa : handler.csrs .misa = entered.csrs .misa
  mstatus : handler.csrs .mstatus = entered.csrs .mstatus
  epc : handler.csrs (handlerOf mode).epc = entered.csrs (handlerOf mode).epc

/-- The return has restored what was saved. -/
structure Restores (mode : PrivilegeLevel) (pc : BitVec 32)
    (before after : Hart) : Prop where
  prv : after.prv = before.prv
  pc : after.pc = pc
  enable : (globalEnable mode).get (after.csrs .mstatus) =
    (globalEnable mode).get (before.csrs .mstatus)

/-- The return instruction of the mode restores what was saved, wherever the
handler got to. -/
def ReturnRestores (cfg : Config) (mode : PrivilegeLevel) (pc : BitVec 32)
    (before entered : Hart) : Prop :=
  ∀ handler instr op, Undisturbed mode entered handler →
    returnMode op = some mode →
      (Machine.answering (perform cfg) (execute cfg instr op) handler).All
        fun returned =>
          ∃ after, returned = .done () after ∧ Restores mode pc before after

/-- The way into a handler and its return. -/
def RoundTrips (cfg : Config) (entry : HartM PrivilegeLevel) (pc : BitVec 32)
    (before : Hart) : Prop :=
  (entry before).All fun outcome =>
    ∃ mode entered, outcome = .done mode entered ∧
      EntersHandler mode before entered ∧
        ReturnRestores cfg mode pc before entered

/-- The return instruction is not refused in the handler of the mode. -/
structure MayReturn (mode : PrivilegeLevel) (hart : Hart) : Prop where
  user : mode = userMode → hart.hasExtension Misa.u = true
  supervisor : mode = supervisorMode → hart.hasExtension Misa.s = true ∧
    Mstatus.tsr.isSet (hart.csrs .mstatus) = false

def trapEntry (trap : SimulationTrap) : HartM PrivilegeLevel := do
  let mode ← prepareTrap trap
  switchToTrapHandler mode
  pure mode

def interruptEntry (x : PendingInterrupts) : HartM PrivilegeLevel := do
  prepareInterrupt x
  switchToTrapHandler x.targetMode
  pure x.targetMode

/-! ## The trip -/

/-- The hart differs from an earlier one in the cause and the value of a
mode's handler, and in its program counter. -/
structure Prepared (mode : PrivilegeLevel) (before prepared : Hart) :
    Prop where
  prv : prepared.prv = before.prv
  regs : prepared.regs = before.regs
  fpRegs : prepared.fpRegs = before.fpRegs
  csr : ∀ register, register ≠ (handlerOf mode).cause →
    register ≠ (handlerOf mode).tval →
    prepared.csrs register = before.csrs register

/-! ### The return instructions -/

section Returns

variable (cfg : Config) {instr : Instruction} {op : Mapping}
  {mode : PrivilegeLevel} {hart : Hart}

/-- A return that passes its checks returns from the handler of its mode. -/
theorem execute_of_mayReturn (returns : returnMode op = some mode)
    (within : hart.prv = mode) (legal : MayReturn mode hart) :
    Machine.answering (perform cfg) (execute cfg instr op) hart =
      returnFromTrapHandler mode hart := by
  rcases returnMode_cases returns with rfl | rfl | rfl
  · obtain rfl : userMode = mode := Option.some.inj returns
    rw [execute_uret, legal.user rfl]
    rfl
  · obtain rfl : supervisorMode = mode := Option.some.inj returns
    obtain ⟨extension, tsr⟩ := legal.supervisor rfl
    have passes : hart.sretLegal := by
      refine ⟨extension, fun refused => ?_⟩
      rw [tsr] at refused
      cases refused.2
    rw [execute_sret_of_legal cfg instr hart passes]
    rfl
  · obtain rfl : machineMode = mode := Option.some.inj returns
    rw [execute_mret]
    rfl

/-- A return that fails its checks traps. -/
theorem execute_of_not_mayReturn (returns : returnMode op = some mode)
    (within : hart.prv = mode) (refused : ¬ MayReturn mode hart) :
    Machine.answering (perform cfg) (execute cfg instr op) hart =
      .ret (.trap ⟨.illegalInstr, instr.setWidth 64⟩ hart) := by
  rcases returnMode_cases returns with rfl | rfl | rfl
  · obtain rfl : userMode = mode := Option.some.inj returns
    have fails : hart.hasExtension Misa.u = false := by
      rw [← Bool.not_eq_true]
      intro user
      refine refused ⟨fun _ => user, fun other => ?_⟩
      cases other
    rw [execute_uret, fails]
    rfl
  · obtain rfl : supervisorMode = mode := Option.some.inj returns
    refine execute_sret_of_not_legal cfg instr hart fun passes => refused ?_
    refine ⟨fun other => ?_, fun _ => ⟨passes.1, ?_⟩⟩
    · cases other
    · rw [← Bool.not_eq_true]
      exact fun tsr => passes.2 ⟨within, tsr⟩
  · obtain rfl : machineMode = mode := Option.some.inj returns
    refine absurd ⟨fun other => ?_, fun other => ?_⟩ refused <;> cases other

end Returns

/-! ### The way in and the way back -/

section Trip

variable {mode : PrivilegeLevel} {before prepared entered : Hart}

theorem mstatus_of_prepared (ready : Prepared mode before prepared) :
    prepared.csrs .mstatus = before.csrs .mstatus := by
  refine ready.csr .mstatus ?_ ?_ <;>
    unfold handlerOf <;> split <;> try split
  all_goals exact nofun

/-- The entry writes two registers. -/
theorem csr_of_enter (enters : enter mode prepared = some entered)
    {register : Register} (epc : register ≠ (handlerOf mode).epc)
    (other : register ≠ .mstatus) :
    entered.csrs register = prepared.csrs register := by
  rcases enter_cases enters with ⟨rfl, rfl⟩ | ⟨rfl, rfl⟩ | ⟨rfl, rfl⟩ <;>
    exact (CsrTable.set_of_ne _ _ other).trans (CsrTable.set_of_ne _ _ epc)

theorem entersHandler_of_enter (ready : Prepared mode before prepared)
    (level : before.prv ≤ mode)
    (enters : enter mode prepared = some entered) :
    EntersHandler mode before entered := by
  have mstatus := mstatus_of_prepared ready
  have prv := prv_of_enter enters
  refine ⟨prv, prv ▸ level, (regs_of_enter enters).trans ready.regs,
    ?_, ?_, ?_⟩
  · rcases enter_cases enters with ⟨_, rfl⟩ | ⟨_, rfl⟩ | ⟨_, rfl⟩ <;>
      exact ready.fpRegs
  · intro register epc cause tval other
    exact (csr_of_enter enters epc other).trans
      (ready.csr register cause tval)
  · rw [← mstatus]
    rcases enter_cases enters with ⟨rfl, rfl⟩ | ⟨rfl, rfl⟩ | ⟨rfl, rfl⟩
    · exact (BitField.set_and_not Mstatus.mpp _ _ (by decide)).trans <|
        (BitField.set_and_not Mstatus.mie _ _ (by decide)).trans <|
          BitField.set_and_not Mstatus.mpie _ _ (by decide)
    · exact (BitField.set_and_not Mstatus.spp _ _ (by decide)).trans <|
        (BitField.set_and_not Mstatus.sie _ _ (by decide)).trans <|
          BitField.set_and_not Mstatus.spie _ _ (by decide)
    · exact (BitField.set_and_not Mstatus.uie _ _ (by decide)).trans <|
        BitField.set_and_not Mstatus.upie _ _ (by decide)

/-- A level that two bits hold is saved and read back. -/
theorem saved_two {level : PrivilegeLevel} (small : level ≤ machineMode) :
    (level.setWidth 2).setWidth 32 = level := by
  unfold machineMode at small
  bv_omega

/-- A level that one bit holds is saved and read back. -/
theorem saved_one {level : PrivilegeLevel} (small : level ≤ supervisorMode) :
    (level.setWidth 1).setWidth 32 = level := by
  unfold supervisorMode at small
  bv_omega

/-- There is a return instruction for every handler. -/
theorem exists_returnMode (enters : enter mode prepared = some entered) :
    ∃ op, returnMode op = some mode := by
  rcases enter_cases enters with ⟨rfl, _⟩ | ⟨rfl, _⟩ | ⟨rfl, _⟩
  · exact ⟨.mret, rfl⟩
  · exact ⟨.sret, rfl⟩
  · exact ⟨.uret, rfl⟩

/-- Three fields of which the last is read behind the others. -/
theorem get_third {first second third : BitField 32}
    (disjoint : third.Disjoint first ∧ third.Disjoint second)
    (x : BitVec first.len) (y : BitVec second.len) (z : BitVec third.len)
    (word : BitVec 32) :
    third.get (first.set x (second.set y (third.set z word))) = z := by
  rw [BitField.get_set_of_disjoint disjoint.1,
    BitField.get_set_of_disjoint disjoint.2, BitField.get_set_same]

theorem restores_of_enter (ready : Prepared mode before prepared)
    (level : before.prv ≤ mode)
    (enters : enter mode prepared = some entered) {handler : Hart}
    (undisturbed : Undisturbed mode entered handler) :
    (returnFromTrapHandler mode handler).All fun returned =>
      ∃ after, returned = .done () after ∧
        Restores mode prepared.pc before after := by
  have kept := mstatus_of_prepared ready
  obtain ⟨_, _, mstatus, epc⟩ := undisturbed
  rw [epc_of_enter enters] at epc
  rcases enter_cases enters with ⟨rfl, rfl⟩ | ⟨rfl, rfl⟩ | ⟨rfl, rfl⟩
  · have mpp : Mstatus.mpp.get (handler.csrs .mstatus) =
        prepared.prv.setWidth 2 := by
      rw [mstatus]
      exact BitField.get_set_same _ _ _
    have mpie : Mstatus.mpie.get (handler.csrs .mstatus) =
        Mstatus.mie.get (before.csrs .mstatus) := by
      rw [mstatus, ← kept]
      exact get_third (by decide) _ _ _ _
    refine ⟨_, rfl, ?_, epc, ?_⟩
    · exact (congrArg (BitVec.setWidth 32) (mpp.trans
        (congrArg (BitVec.setWidth 2) ready.prv))).trans (saved_two level)
    · exact (get_third (by decide) _ _ _ _).trans mpie
  · have spp : Mstatus.spp.get (handler.csrs .mstatus) =
        prepared.prv.setWidth 1 := by
      rw [mstatus]
      exact BitField.get_set_same _ _ _
    have spie : Mstatus.spie.get (handler.csrs .mstatus) =
        Mstatus.sie.get (before.csrs .mstatus) := by
      rw [mstatus, ← kept]
      exact get_third (by decide) _ _ _ _
    refine ⟨_, rfl, ?_, epc, ?_⟩
    · exact (congrArg (BitVec.setWidth 32) (spp.trans
        (congrArg (BitVec.setWidth 1) ready.prv))).trans (saved_one level)
    · exact (get_third (by decide) _ _ _ _).trans spie
  · have upie : Mstatus.upie.get (handler.csrs .mstatus) =
        Mstatus.uie.get (before.csrs .mstatus) := by
      rw [mstatus, ← kept]
      exact (BitField.get_set_of_disjoint (by decide) _ _).trans
        (BitField.get_set_same _ _ _)
    refine ⟨_, rfl, ?_, epc, ?_⟩
    · exact (BitVec.le_zero_iff.1 level).symm
    · exact ((BitField.get_set_of_disjoint (by decide) _ _).trans
        (BitField.get_set_same _ _ _)).trans upie

/-- The entry writes nothing that the return instruction checks. -/
theorem mayReturn_of_enter (ready : Prepared mode before prepared)
    (enters : enter mode prepared = some entered) {handler : Hart}
    (undisturbed : Undisturbed mode entered handler) :
    MayReturn mode handler ↔ MayReturn mode before := by
  have kept := mstatus_of_prepared ready
  have apart : Register.misa ≠ (handlerOf mode).epc ∧
      Register.misa ≠ (handlerOf mode).cause ∧
      Register.misa ≠ (handlerOf mode).tval := by
    unfold handlerOf
    split
    · decide
    split <;> decide
  have entry : entered.csrs .misa = before.csrs .misa :=
    (csr_of_enter enters apart.1 (by decide)).trans
      (ready.csr .misa apart.2.1 apart.2.2)
  have same : handler.csrs .misa = before.csrs .misa :=
    undisturbed.misa.trans entry
  have extensions (extension : BitVec 32) :
      handler.hasExtension extension = before.hasExtension extension :=
    congrArg (Misa.has · extension) same
  have tsr : mode = supervisorMode →
      Mstatus.tsr.isSet (handler.csrs .mstatus) =
        Mstatus.tsr.isSet (before.csrs .mstatus) := by
    rintro rfl
    rw [undisturbed.mstatus, ← kept]
    rcases enter_cases enters with ⟨machine, _⟩ | ⟨_, rfl⟩ | ⟨user, _⟩
    · cases machine
    · exact congrArg (· != 0) <|
        (BitField.get_set_of_disjoint (by decide) _ _).trans <|
          (BitField.get_set_of_disjoint (by decide) _ _).trans <|
            BitField.get_set_of_disjoint (by decide) _ _
    · cases user
  constructor
  · intro legal
    exact ⟨fun user => (extensions _).symm.trans (legal.user user),
      fun supervisor => ⟨(extensions _).symm.trans
        (legal.supervisor supervisor).1,
          (tsr supervisor).symm.trans (legal.supervisor supervisor).2⟩⟩
  · intro legal
    exact ⟨fun user => (extensions _).trans (legal.user user),
      fun supervisor => ⟨(extensions _).trans (legal.supervisor supervisor).1,
        (tsr supervisor).trans (legal.supervisor supervisor).2⟩⟩

/-- The way into the handler of a mode that is not below the hart's, and back if
its return is not refused. -/
theorem trip_of_enter (cfg : Config) (ready : Prepared mode before prepared)
    (level : before.prv ≤ mode)
    (enters : enter mode prepared = some entered) :
    EntersHandler mode before entered ∧
      (ReturnRestores cfg mode prepared.pc before entered ↔
        MayReturn mode before) := by
  refine ⟨entersHandler_of_enter ready level enters, fun restores => ?_,
    fun legal => ?_⟩
  · have undisturbed : Undisturbed mode entered entered :=
      ⟨prv_of_enter enters, rfl, rfl, rfl⟩
    rw [← mayReturn_of_enter ready enters undisturbed]
    obtain ⟨op, returns⟩ := exists_returnMode enters
    apply Classical.byContradiction
    intro refused
    have returned := restores entered 0 op undisturbed returns
    rw [execute_of_not_mayReturn cfg returns undisturbed.prv refused,
      Program.all_ret] at returned
    obtain ⟨_, contradiction, _⟩ := returned
    cases contradiction
  · intro handler instr op undisturbed returns
    rw [execute_of_mayReturn cfg returns undisturbed.prv <|
      (mayReturn_of_enter ready enters undisturbed).2 legal]
    exact restores_of_enter ready level enters undisturbed

end Trip

/-! ## Interrupts -/

/-- The cause is one of the handler's registers. -/
theorem prepared_setCause (mode : PrivilegeLevel) (hart : Hart)
    (interrupt : BitVec 1) (code : Nat) :
    Prepared mode hart
      (setCause hart (handlerOf mode).cause interrupt code) where
  prv := rfl
  regs := rfl
  fpRegs := rfl
  csr _ cause _ := CsrTable.set_of_ne _ _ cause

/-- The interrupt that is due is taken, and returned from exactly when the
return is not refused. -/
theorem interruptEntry_roundTrips_iff (cfg : Config) {hart : Hart}
    (within : MieWithin hart)
    (due : (computePendingInterrupts hart).targetMode ≠ noneMode) :
    RoundTrips cfg (interruptEntry (computePendingInterrupts hart)) hart.pc
        hart ↔
      MayReturn (computePendingInterrupts hart).targetMode hart := by
  rcases computePendingInterrupts_rule hart within with
    ⟨idle, _⟩ | ⟨_, exc, chosen, isDue⟩
  · exact absurd idle due
  have valid : (computePendingInterrupts hart).targetMode.isValid :=
    (targetMode_cases hart).resolve_right due
  obtain ⟨entered, enters⟩ := Option.isSome_iff_exists.1 <|
    (enter_isSome_iff _ <| setCause hart
      (handlerOf (computePendingInterrupts hart).targetMode).cause 1
      exc.code).2 valid
  unfold RoundTrips interruptEntry
  rw [Machine.bind_apply, prepareInterrupt_apply _ _ valid, chosen,
    Program.ret_bind, Machine.andThen_done, Machine.bind_apply,
    switchToTrapHandler_apply, enters]
  obtain ⟨way, back⟩ :=
    trip_of_enter cfg (prepared_setCause _ _ _ _) isDue.prv_le enters
  constructor
  · intro trips
    obtain ⟨mode, after, ended, _, restores⟩ := trips ()
    cases ended
    exact back.1 restores
  · exact fun legal _ => ⟨_, entered, rfl, way, back.2 legal⟩

/-! ## Traps -/

theorem prepared_recorded (mode : PrivilegeLevel) (trap : SimulationTrap)
    (hart : Hart) :
    Prepared mode hart (recorded (handlerOf mode) trap hart.rewound) where
  prv := rfl
  regs := rfl
  fpRegs := rfl
  csr _ cause tval :=
    (CsrTable.set_of_ne _ _ tval).trans (CsrTable.set_of_ne _ _ cause)

/-- The entry does not lower the level, except from the reserved level when
the trap is delegated. -/
theorem prv_le_trapTarget_iff (hart : Hart) (reason : ExceptionCode) :
    hart.prv ≤ trapTarget hart reason ↔
      hart.prv.isValid ∨
        hart.prv = 2 ∧ (hart.csrs .medeleg).getLsbD reason.code = false := by
  have levels : machineMode < hart.prv ∨ hart.prv = machineMode ∨
      hart.prv = supervisorMode ∨ hart.prv = userMode ∨ hart.prv = 2 := by
    unfold machineMode supervisorMode userMode
    bv_omega
  rcases levels with above | listed
  · have unlisted (level : PrivilegeLevel) (small : level ≤ machineMode) :
        ¬ hart.prv = level := by
      rintro rfl
      exact BitVec.not_lt.2 small above
    refine iff_of_false (fun low => ?_) ?_
    · refine BitVec.not_lt.2 (BitVec.le_trans low ?_) above
      rcases trapTarget_isValid hart reason with mode | mode | mode <;>
        rw [mode] <;> decide
    · rintro ((level | level | level) | ⟨level, _⟩) <;>
        exact unlisted _ (by decide) level
  · unfold trapTarget
    generalize (hart.csrs .medeleg).getLsbD reason.code = delegated
    generalize (hart.csrs .sedeleg).getLsbD reason.code = further
    rcases listed with level | level | level | level <;> rw [level] <;>
      revert delegated further <;> decide

/-- The value of the trap fits its register, the trap is not delegated from the
reserved level, and its handler may return. -/
structure SavesTrap (trap : SimulationTrap) (hart : Hart) : Prop where
  fits : trap.mtval.toNat < 2 ^ 32
  level : hart.prv.isValid ∨
    hart.prv = 2 ∧ (hart.csrs .medeleg).getLsbD trap.reason.code = false
  mayReturn : MayReturn (trapTarget hart trap.reason) hart

/-- A trap is returned from exactly when its value fits, its entry does not
lower the level and the return is not refused. -/
theorem trapEntry_roundTrips_iff (cfg : Config) (trap : SimulationTrap)
    (hart : Hart) :
    RoundTrips cfg (trapEntry trap) hart.lastPc hart ↔ SavesTrap trap hart := by
  have levels := prv_le_trapTarget_iff hart trap.reason
  unfold RoundTrips trapEntry
  rw [Machine.bind_apply, prepareTrap_apply, Program.ret_bind]
  by_cases elsewhere : trapTarget hart trap.reason = userMode ∧
      hart.prv ≠ userMode
  · rw [if_pos elsewhere, Machine.andThen_abort, Program.all_ret]
    refine iff_of_false (fun trips => ?_) fun condition => ?_
    · obtain ⟨_, _, contradiction, _⟩ := trips
      cases contradiction
    · have level := levels.2 condition.level
      rw [elsewhere.1] at level
      exact elsewhere.2 (BitVec.le_zero_iff.1 level)
  rw [if_neg elsewhere]
  by_cases fits : trap.mtval.toNat < 2 ^ 32
  · rw [if_pos fits, Machine.andThen_done]
    obtain ⟨entered, enters⟩ := Option.isSome_iff_exists.1 <|
      (enter_isSome_iff _ <|
        recorded (handlerOf (trapTarget hart trap.reason)) trap
          hart.rewound).2 (trapTarget_isValid hart trap.reason)
    rw [Machine.bind_apply, switchToTrapHandler_apply, enters]
    constructor
    · intro trips
      obtain ⟨mode, after, ended, way, restores⟩ := trips ()
      cases ended
      have level := way.prv ▸ way.raises
      have trip :=
        trip_of_enter cfg (prepared_recorded _ _ _) level enters
      exact ⟨fits, levels.1 level, trip.2.1 restores⟩
    · intro condition
      obtain ⟨way, back⟩ := trip_of_enter cfg (prepared_recorded _ _ _)
        (levels.2 condition.level) enters
      exact fun _ => ⟨_, entered, rfl, way, back.2 condition.mayReturn⟩
  · rw [if_neg fits, Machine.andThen_abort, Program.all_ret]
    refine iff_of_false (fun trips => ?_) fun condition => fits condition.fits
    obtain ⟨_, _, contradiction, _⟩ := trips
    cases contradiction

/-! ## Runs -/

theorem lastPc_persistent (pc : BitVec 32) :
    Persistent fun hart => hart.lastPc = pc where
  steady same steady := steady.lastPc.trans same
  executed same executed := executed.lastPc.trans same
  returns same := ⟨same, same, same⟩

/-- A trap is caught with the address of its instruction noted. -/
theorem lastPc_of_execStep {G : Type} {cfg : Config}
    {surroundings : Surroundings Reply G} {world later : G}
    {hart middle : Hart} {trap : SimulationTrap}
    (ends : (execStep cfg hart.starting).ReachesIn surroundings world later
      (.trap trap middle)) : middle.lastPc = hart.pc := by
  have start : hart.starting.lastPc = hart.pc := rfl
  have located := (Program.all_iff_reaches _ _).1 <|
    (lastPc_persistent hart.pc).execStep cfg start
  exact located _ ends.reaches middle rfl

/-- What the end of an instruction leads to is returned from: the interrupt
that is due then, or the trap, at the instruction's address. -/
def TripsAfter (cfg : Config) (hart : Hart) :
    Outcome Hart SimulationTrap Fatal Unit → Prop
  | .done _ middle =>
      (computePendingInterrupts middle).targetMode ≠ noneMode →
        RoundTrips cfg (interruptEntry (computePendingInterrupts middle))
          middle.pc middle
  | .trap trap middle => RoundTrips cfg (trapEntry trap) hart.pc middle
  | .abort _ => True

/-- The interrupt that is due may be returned from, and the trap is saved. -/
def Saves : Outcome Hart SimulationTrap Fatal Unit → Prop
  | .done _ middle =>
      (computePendingInterrupts middle).targetMode ≠ noneMode →
        MayReturn (computePendingInterrupts middle).targetMode middle
  | .trap trap middle => SavesTrap trap middle
  | .abort _ => True

/-- In every reachable state, whatever an instruction ends with is returned
from exactly when the return is not refused and it is no trap with a wide value
and no delegated trap at the reserved level. -/
theorem tripsAfter_iff {G : Type} {cfg : Config}
    {surroundings : Surroundings Reply G} {world later : G} {hart : Hart}
    {outcome : Outcome Hart SimulationTrap Fatal Unit}
    (reachable : Reachable cfg surroundings world hart)
    (ends : (execStep cfg hart.starting).ReachesIn surroundings world later
      outcome) :
    TripsAfter cfg hart outcome ↔ Saves outcome := by
  cases outcome with
  | done value middle =>
      have within : MieWithin hart :=
        mieWithin_enduring.run (fun _ boots => mieWithin_of_boots boots)
          reachable
      have kept := (Program.all_iff_reaches _ _).1 <|
        mieWithin_enduring.execStep cfg (mieWithin_enduring.starting within)
      exact imp_congr_right fun due => interruptEntry_roundTrips_iff cfg
        ((Outcome.leaves_done _ _ _).1 (kept _ ends.reaches)) due
  | trap trap middle =>
      unfold TripsAfter
      rw [← lastPc_of_execStep ends]
      exact trapEntry_roundTrips_iff cfg trap middle
  | abort reason => exact Iff.rfl

/-- The end of the instruction that the run of a program comes to is a trap. -/
def trapsAfter (holds : SimulationTrap → Hart → Bool)
    (reached : Hart × Platform) : Bool :=
  match ((execStep Platform.config reached.1.starting).run Platform.handle
    reached.2).1 with
  | .trap trap middle => holds trap middle
  | _ => false

/-- A run of a program that ends before a trapping instruction. -/
theorem exists_of_trapsAfter (program : List (BitVec 32)) (steps : ℕ)
    (holds : SimulationTrap → Hart → Bool)
    (executes : (Platform.execution (fun _ => true) program steps).any
      (trapsAfter holds) = true) :
    ∃ (world : Platform) (hart : Hart) (later : Platform)
      (trap : SimulationTrap) (middle : Hart),
      Reachable Platform.config Platform.surroundings world hart ∧
      (execStep Platform.config hart.starting).ReachesIn Platform.surroundings
        world later (.trap trap middle) ∧
      holds trap middle = true := by
  obtain ⟨⟨hart, world⟩, executed, traps⟩ :=
    (Option.any_eq_true _ _).1 executes
  have reachable : Reachable Platform.config Platform.surroundings world hart :=
    (Platform.run_of_execution executed).mono fun _ _ => trivial
  unfold trapsAfter at traps
  split at traps
  next trap middle ran =>
    exact ⟨world, hart, _, trap, middle, reachable,
      (Program.reachesIn_of Platform.handle world _
        (execStep Platform.config hart.starting) _).2 (Prod.ext ran rfl),
      traps⟩
  next => cases traps

/-- Delegate illegal instructions, return to supervisor mode, and execute one
there. -/
def delegateFromSupervisor : List (BitVec 32) :=
  [0x30225073, 0x000010b7, 0x0010d093, 0x30009073, 0x341c5073, 0x30200073,
    0xffffffff]

/-- A trap of supervisor mode that is delegated to it. -/
theorem tripsAfter_delegateFromSupervisor :
    ∃ (world : Platform) (hart : Hart) (trap : SimulationTrap) (middle : Hart),
      Reachable Platform.config Platform.surroundings world hart ∧
      trapTarget middle trap.reason = supervisorMode ∧
      TripsAfter Platform.config hart (.trap trap middle) := by
  obtain ⟨world, hart, later, trap, middle, reachable, ends, saved⟩ :=
    exists_of_trapsAfter delegateFromSupervisor 6
      (fun trap middle =>
        decide (trap.mtval.toNat < 2 ^ 32) && middle.prv == supervisorMode &&
          middle.hasExtension Misa.s &&
            !Mstatus.tsr.isSet (middle.csrs .mstatus) &&
              trapTarget middle trap.reason == supervisorMode)
      (by decide +kernel)
  simp only [Bool.and_eq_true, decide_eq_true_eq, beq_iff_eq,
    Bool.not_eq_true'] at saved
  obtain ⟨⟨⟨⟨fits, prv⟩, extension⟩, tsr⟩, target⟩ := saved
  refine ⟨world, hart, trap, middle, reachable, target,
    (tripsAfter_iff reachable ends).2 ⟨fits, .inl ?_, ?_⟩⟩
  · rw [prv]
    exact .inr (.inl rfl)
  · rw [target]
    refine ⟨fun other => ?_, fun _ => ⟨extension, tsr⟩⟩
    cases other

/-- Delegate illegal instructions, return to the reserved level, and execute
one there. -/
def delegateFromReserved : List (BitVec 32) :=
  [0x30225073, 0x000010b7, 0x30009073, 0x341a5073, 0x30200073, 0xffffffff]

/-- The delegated trap lowers the level. -/
theorem not_tripsAfter_of_reachable :
    ¬ ∀ (world : Platform) (hart : Hart) (later : Platform)
      (outcome : Outcome Hart SimulationTrap Fatal Unit),
      Reachable Platform.config Platform.surroundings world hart →
      (execStep Platform.config hart.starting).ReachesIn
        Platform.surroundings world later outcome →
      TripsAfter Platform.config hart outcome := by
  intro always
  obtain ⟨world, hart, later, trap, middle, reachable, ends, lowers⟩ :=
    exists_of_trapsAfter delegateFromReserved 5
      (fun trap middle => middle.prv == 2 &&
        (middle.csrs .medeleg).getLsbD trap.reason.code)
      (by decide +kernel)
  have trips : RoundTrips Platform.config (trapEntry trap) hart.pc middle :=
    always world hart _ _ reachable ends
  rw [← lastPc_of_execStep ends, trapEntry_roundTrips_iff] at trips
  rw [Bool.and_eq_true, beq_iff_eq] at lowers
  rcases trips.level with valid | ⟨-, kept⟩
  · rw [lowers.1] at valid
    exact absurd valid (by decide)
  · rw [lowers.2] at kept
    cases kept

end Rv32

end RiscvVp
