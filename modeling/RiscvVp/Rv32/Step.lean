import Mathlib
import RiscvVp.Rv32.Executed

/-!
# The parts of a step

What the parts of `runStep` do to a hart, each as one statement: the fetch
and the decoder, the entry to a trap handler, the choice between an interrupt
and none, the handling of a trap, and the bookkeeping at the end.
-/

namespace RiscvVp

namespace Rv32

open Bits Csr Interaction

/-! ## Entry to a handler -/

/-- The state after `switch_to_trap_handler`, for a mode it knows. -/
def enter (targetMode : PrivilegeLevel) (hart : Hart) : Option Hart :=
  let released := { hart with lrScCounter := 0, prv := targetMode }
  if targetMode = machineMode then some (enterMachine hart.prv released)
  else if targetMode = supervisorMode then
    some (enterSupervisor hart.prv released)
  else if targetMode = userMode then some (enterUser released)
  else none

theorem switchToTrapHandler_apply (targetMode : PrivilegeLevel)
    (hart : Hart) :
    switchToTrapHandler targetMode hart =
      .call (.unlock hart.hartId) fun _ => .ret <|
        match enter targetMode hart with
        | some entered => .done () entered
        | none => .abort .unknownPrivilegeLevel := by
  unfold switchToTrapHandler releaseLrScReservation Memory.atomicUnlock
  simp only [Machine.bind_apply, Machine.modifies_apply, Machine.reads_apply,
    Machine.andThen_done, Program.ret_bind, call, Machine.request_apply,
    Program.call_bind, Hart.hartId, enter]
  congr 1
  funext _
  split
  · simp
  split
  · simp
  split
  · simp
  · simp

/-- The registers of the handler that belongs to a mode. -/
def handlerOf (mode : PrivilegeLevel) : TrapRegisters :=
  if mode = machineMode then machineTrap
  else if mode = supervisorMode then supervisorTrap
  else userTrap

/-- The program counter is the entry address derived from the `xtvec` of the
mode the hart is in. -/
def Hart.atHandler (hart : Hart) : Prop :=
  hart.pc = handlerAddress (hart.csrs (handlerOf hart.prv).tvec)
    (hart.csrs (handlerOf hart.prv).cause)

section Enter

variable {targetMode : PrivilegeLevel} {hart entered : Hart}

/-- A mode is entered exactly when it is one of the three. -/
theorem enter_cases (enters : enter targetMode hart = some entered) :
    (targetMode = machineMode ∧
      entered = enterMachine hart.prv
        { hart with lrScCounter := 0, prv := targetMode }) ∨
    (targetMode = supervisorMode ∧
      entered = enterSupervisor hart.prv
        { hart with lrScCounter := 0, prv := targetMode }) ∨
    (targetMode = userMode ∧
      entered = enterUser
        { hart with lrScCounter := 0, prv := targetMode }) := by
  unfold enter at enters
  split at enters
  next machine =>
    cases enters
    exact .inl ⟨machine, rfl⟩
  split at enters
  next supervisor =>
    cases enters
    exact .inr (.inl ⟨supervisor, rfl⟩)
  split at enters
  next user =>
    cases enters
    exact .inr (.inr ⟨user, rfl⟩)
  next => cases enters

theorem enter_isSome_iff (targetMode : PrivilegeLevel) (hart : Hart) :
    (enter targetMode hart).isSome ↔ targetMode.isValid := by
  unfold enter PrivilegeLevel.isValid
  split
  · simp_all
  split
  · simp_all
  split
  · simp_all
  · simp_all

theorem prv_of_enter (enters : enter targetMode hart = some entered) :
    entered.prv = targetMode := by
  rcases enter_cases enters with ⟨_, rfl⟩ | ⟨_, rfl⟩ | ⟨_, rfl⟩ <;> rfl

theorem atHandler_of_enter (enters : enter targetMode hart = some entered) :
    entered.atHandler := by
  rcases enter_cases enters with ⟨rfl, rfl⟩ | ⟨rfl, rfl⟩ | ⟨rfl, rfl⟩ <;> rfl

theorem regs_of_enter (enters : enter targetMode hart = some entered) :
    entered.regs = hart.regs := by
  rcases enter_cases enters with ⟨_, rfl⟩ | ⟨_, rfl⟩ | ⟨_, rfl⟩ <;> rfl

/-- The exception program counter of the mode is where the hart was. -/
theorem epc_of_enter (enters : enter targetMode hart = some entered) :
    entered.csrs (handlerOf targetMode).epc = hart.pc := by
  rcases enter_cases enters with ⟨rfl, rfl⟩ | ⟨rfl, rfl⟩ | ⟨rfl, rfl⟩ <;> rfl

end Enter

/-! ## Interrupts -/

/-- The mode of a pending interrupt is one of the three, or there is none. -/
theorem targetMode_cases (hart : Hart) :
    (computePendingInterrupts hart).targetMode.isValid ∨
      (computePendingInterrupts hart).targetMode = noneMode := by
  simp only [computePendingInterrupts]
  split
  · exact .inr rfl
  split
  · exact .inl (.inl rfl)
  split
  · exact .inl (.inr (.inl rfl))
  split
  · exact .inl (.inr (.inr rfl))
  · exact .inr rfl

/-- How the choice between an interrupt and none can end. -/
inductive InterruptChoice (hart : Hart) :
    Outcome Hart SimulationTrap Fatal StepEvent → Prop
  | retired
      (idle : (computePendingInterrupts hart).targetMode = noneMode) :
      InterruptChoice hart (.done .retired hart)
  | taken {exc : ExceptionCode} {entered : Hart}
      (due : (computePendingInterrupts hart).targetMode ≠ noneMode)
      (chosen :
        highestPriority (computePendingInterrupts hart).pending = some exc)
      (enters : enter (computePendingInterrupts hart).targetMode
        (setCause hart
          (handlerOf (computePendingInterrupts hart).targetMode).cause 1
          exc.code) = some entered) :
      InterruptChoice hart
        (.done (.interrupted (computePendingInterrupts hart)) entered)
  | lost
      (due : (computePendingInterrupts hart).targetMode ≠ noneMode)
      (nothing :
        highestPriority (computePendingInterrupts hart).pending = none) :
      InterruptChoice hart (.abort .noPendingInterrupt)

theorem prepareInterrupt_apply (e : PendingInterrupts) (hart : Hart)
    (valid : e.targetMode.isValid) :
    prepareInterrupt e hart = .ret
      (match highestPriority e.pending with
      | none => .abort .noPendingInterrupt
      | some exc =>
          .done () <|
            setCause hart (handlerOf e.targetMode).cause 1 exc.code) := by
  unfold prepareInterrupt
  cases highestPriority e.pending with
  | none => rfl
  | some exc =>
      rcases valid with mode | mode | mode <;> rw [mode] <;> rfl

theorem takeInterrupt_all (hart : Hart) :
    (takeInterrupt hart).All (InterruptChoice hart) := by
  unfold takeInterrupt
  rw [Machine.all_bind, Machine.reads_apply, Program.all_ret]
  dsimp only
  rw [Machine.ite_apply]
  split
  next due =>
    have valid : (computePendingInterrupts hart).targetMode.isValid :=
      (targetMode_cases hart).resolve_right due
    rw [Machine.all_bind, prepareInterrupt_apply _ hart valid,
      Program.all_ret]
    cases chosen : highestPriority (computePendingInterrupts hart).pending with
    | none => exact .lost due chosen
    | some exc =>
        obtain ⟨entered, enters⟩ := Option.isSome_iff_exists.1 <|
          (enter_isSome_iff _ <| setCause hart
            (handlerOf (computePendingInterrupts hart).targetMode).cause 1
            exc.code).2 valid
        dsimp only
        rw [Machine.all_bind, switchToTrapHandler_apply, Program.all_call,
          enters]
        exact fun _ => .taken due chosen enters
  next idle => exact .retired (Decidable.not_not.1 idle)

/-! ## Traps -/

/-- The cause and the value of a trap in the registers of its handler. -/
def recorded (registers : TrapRegisters) (trap : SimulationTrap)
    (hart : Hart) : Hart :=
  (setCause hart registers.cause 0 trap.reason.code).setCsr registers.tval
    (trap.mtval.setWidth 32)

/-- The hart with its program counter back at the instruction. -/
def Hart.rewound (hart : Hart) : Hart := { hart with pc := hart.lastPc }

/-- How the handling of a trap can end. -/
inductive TrapHandling (trap : SimulationTrap) (hart : Hart) :
    Outcome Hart SimulationTrap Fatal StepEvent → Prop
  | taken {entered : Hart}
      (fits : trap.mtval.toNat < 2 ^ 32)
      (enters : enter (trapTarget hart trap.reason)
        (recorded (handlerOf (trapTarget hart trap.reason)) trap
          hart.rewound) = some entered) :
      TrapHandling trap hart
        (.done (.trapped trap (trapTarget hart trap.reason)) entered)
  | badLexicalCast (wide : ¬ trap.mtval.toNat < 2 ^ 32) :
      TrapHandling trap hart (.abort .badLexicalCast)
  | delegation (user : trapTarget hart trap.reason = userMode)
      (elsewhere : hart.prv ≠ userMode) :
      TrapHandling trap hart (.abort .trapDelegation)

theorem trapTarget_isValid (hart : Hart) (reason : ExceptionCode) :
    (trapTarget hart reason).isValid := by
  unfold trapTarget
  split
  · exact .inl rfl
  split
  · exact .inr (.inl rfl)
  · exact .inr (.inr rfl)

theorem recordTrap_apply (registers : TrapRegisters) (trap : SimulationTrap)
    (hart : Hart) :
    recordTrap registers trap hart = .ret
      (if trap.mtval.toNat < 2 ^ 32 then
        .done () (recorded registers trap hart)
      else .abort .badLexicalCast) := by
  unfold recordTrap lexicalCast recorded
  by_cases fits : trap.mtval.toNat < 2 ^ 32
  · simp only [fits, if_true, Machine.bind_apply, Machine.modifies_apply,
      Program.ret_bind, Machine.andThen_done]
  · simp only [fits, if_false, Machine.bind_apply, Machine.modifies_apply,
      Program.ret_bind, Machine.andThen_done, Machine.abort_apply]

/-- `prepare_trap` asks nothing of the surroundings. -/
theorem prepareTrap_apply (trap : SimulationTrap) (hart : Hart) :
    prepareTrap trap hart = .ret
      (if trapTarget hart trap.reason = userMode ∧ hart.prv ≠ userMode then
        .abort .trapDelegation
      else if trap.mtval.toNat < 2 ^ 32 then
        .done (trapTarget hart trap.reason) <|
          recorded (handlerOf (trapTarget hart trap.reason)) trap hart.rewound
      else .abort .badLexicalCast) := by
  have target : trapTarget { hart with pc := hart.lastPc } trap.reason =
      trapTarget hart trap.reason := rfl
  have mode : Hart.uMode { hart with pc := hart.lastPc } =
      (hart.prv == userMode) := rfl
  unfold prepareTrap
  simp only [Machine.bind_apply, Machine.modifies_apply, Machine.reads_apply,
    Program.ret_bind, Machine.andThen_done, Machine.ite_apply, id, target,
    mode]
  by_cases fits : trap.mtval.toNat < 2 ^ 32 <;>
    by_cases user : hart.prv = userMode <;>
    rcases trapTarget_isValid hart trap.reason with
      valid | valid | valid <;>
    simp [valid, fits, user, beq_eq_decide, recordTrap_apply, handlerOf,
      Hart.rewound, -Nat.reducePow]

theorem takeTrap_all (trap : SimulationTrap) (hart : Hart) :
    (takeTrap trap hart).All (TrapHandling trap hart) := by
  unfold takeTrap observe
  rw [Machine.all_bind]
  intro _
  rw [Program.all_ret]
  dsimp only
  rw [Machine.all_bind, prepareTrap_apply, Program.all_ret]
  by_cases elsewhere : trapTarget hart trap.reason = userMode ∧
      hart.prv ≠ userMode
  · rw [if_pos elsewhere]
    exact .delegation elsewhere.1 elsewhere.2
  rw [if_neg elsewhere]
  by_cases fits : trap.mtval.toNat < 2 ^ 32
  · rw [if_pos fits]
    dsimp only
    obtain ⟨entered, enters⟩ := Option.isSome_iff_exists.1 <|
      (enter_isSome_iff _ <|
        recorded (handlerOf (trapTarget hart trap.reason)) trap
          hart.rewound).2 (trapTarget_isValid hart trap.reason)
    rw [Machine.all_bind, switchToTrapHandler_apply, Program.all_call, enters]
    exact fun _ => .taken fits enters
  · rw [if_neg fits]
    exact .badLexicalCast fits

/-! ## Fetch and decode -/

section Issue

variable (cfg : Config) {frame : Frame Hart Fatal}

/-- The frame allows the assignments of the fetch and the decoder. -/
def AllowsIssue (frame : Frame Hart Fatal) : Prop :=
  ∀ hart op instr pc, frame.pre hart →
    frame.related hart { hart with op := op, instr := instr, pc := pc }

/-- The exception about a compressed instruction cannot be reached. -/
theorem decode_framed (fetches : AllowsIssue frame) :
    Machine.Framed frame decode := by
  have stepsPast (op : Mapping) (bytes : BitVec 32) :
      Machine.Framed frame
        (Machine.modifies fun hart =>
          { hart with op := op, pc := hart.pc + bytes } : HartM Unit) :=
    Machine.Framed.modifies fun hart met => fetches hart _ _ _ met
  have expands (op : Mapping) (word : BitVec 32) :
      Machine.Framed frame
        (Machine.modifies fun hart =>
          { hart with instr := word, op := op, pc := hart.pc + 2 } :
          HartM Unit) :=
    Machine.Framed.modifies fun hart met => fetches hart _ _ _ met
  unfold decode
  refine @Machine.Framed.bind _ _ _ _ _ _ _ _ _ _ _ fun instr => ?_
  split
  · infer_instance
  split
  next compressed =>
    obtain ⟨expansion, equation⟩ := Option.isSome_iff_exists.1 <|
      Instruction.decodeAndExpandCompressed_isSome .rv32 compressed
    rw [equation]
    infer_instance
  · infer_instance

variable [Serves frame]

theorem fetch_framed (fetches : AllowsIssue frame) :
    Machine.Framed frame (fetch cfg) := by
  have forgets : Machine.Framed frame
      (Machine.modifies fun hart => { hart with op := .undef, instr := 0 } :
        HartM Unit) :=
    Machine.Framed.modifies fun hart met => fetches hart _ _ _ met
  have keeps (word : BitVec 32) : Machine.Framed frame
      (Machine.modifies fun hart => { hart with instr := word } :
        HartM Unit) :=
    Machine.Framed.modifies fun hart met => fetches hart _ _ _ met
  unfold fetch
  infer_instance

theorem issue_framed (fetches : AllowsIssue frame)
    (misaligned : frame.aborts .misalignedInstruction) :
    Machine.Framed frame (issue cfg) := by
  have fetched := fetch_framed cfg fetches
  have decoded := decode_framed fetches
  have aligned (condition : Bool) : Machine.Framed frame
      (Machine.assert condition .misalignedInstruction : HartM Unit) :=
    Machine.Framed.assert misaligned
  unfold issue
  infer_instance

/-- Nothing before the switch touches the registers, the privilege level or
the control registers. -/
instance (guard : Guard) :
    Machine.Framed (guard.frame true) (issue cfg) :=
  issue_framed cfg
    (fun _ _ _ _ _ => guard.related_of_csrs true rfl rfl rfl rfl)
    (guard.listed _ (.inl rfl))

end Issue

/-! ## The end of a step -/

/-- The frame allows the bookkeeping at the end of a step. -/
class Bookkeeps (frame : Frame Hart Fatal) : Prop where
  interrupt : ∀ event (hart : Hart), frame.pre hart →
    frame.related hart (hart.interrupt event)
  lrScCounter : ∀ value (hart : Hart), frame.pre hart →
    frame.related hart { hart with lrScCounter := value }
  pipeline : ∀ pipeline (hart : Hart), frame.pre hart →
    frame.related hart { hart with pipeline := pipeline }
  lastCycles : ∀ lastCycles (hart : Hart), frame.pre hart →
    frame.related hart { hart with lastCycles := lastCycles }
  instruction : ∀ hart, frame.pre hart →
    frame.related hart (countInstruction hart)
  cycles : ∀ newCycles hart, frame.pre hart →
    frame.related hart (countCycles newCycles hart)
  negative : frame.aborts .lrScCounterNegative

section Bookkeeping

variable (cfg : Config) {frame : Frame Hart Fatal} [keeps : Bookkeeps frame]

theorem deliver_framed (interrupts : List InterruptEvent) :
    Machine.Framed frame (deliver interrupts) := by
  refine Machine.Framed.modifies fun hart met => ?_
  induction interrupts generalizing hart with
  | nil => exact frame.refl hart
  | cons event rest inductionHypothesis =>
      have first := keeps.interrupt event hart met
      exact frame.trans first <|
        inductionHypothesis _ (frame.stable met first)

theorem releaseLrScReservation_bookkept :
    Machine.Framed frame releaseLrScReservation := by
  have cleared : Machine.Framed frame
      (Machine.modifies fun hart => { hart with lrScCounter := 0 } :
        HartM Unit) :=
    Machine.Framed.modifies (keeps.lrScCounter 0)
  unfold releaseLrScReservation Memory.atomicUnlock
  infer_instance

theorem tickLrScCounter_framed : Machine.Framed frame tickLrScCounter := by
  have counted : Machine.Framed frame
      (Machine.modifies fun hart =>
        { hart with lrScCounter := hart.lrScCounter - 1 } : HartM Unit) :=
    Machine.Framed.modifies fun hart => keeps.lrScCounter _ hart
  have checked (condition : Bool) : Machine.Framed frame
      (Machine.assert condition .lrScCounterNegative : HartM Unit) :=
    Machine.Framed.assert keeps.negative
  have released : Machine.Framed frame releaseLrScReservation :=
    releaseLrScReservation_bookkept
  unfold tickLrScCounter
  infer_instance

theorem advanceTime_framed (newCycles : Nat) :
    Machine.Framed frame (advanceTime cfg newCycles) := by
  have advanced : Machine.Framed frame
      (Machine.modifies fun hart =>
        { hart with pipeline := hart.pipeline.advance 1 } : HartM Unit) :=
    Machine.Framed.modifies fun hart => keeps.pipeline _ hart
  have noted : Machine.Framed frame
      (Machine.modifies fun hart =>
        { hart with lastCycles := hart.pipeline.numTotalCycles } :
        HartM Unit) :=
    Machine.Framed.modifies fun hart => keeps.lastCycles _ hart
  unfold advanceTime
  infer_instance

theorem synchronise_framed (advance : BitVec 64) :
    Machine.Framed frame (synchronise advance) := by
  have delivered (interrupts : List InterruptEvent) :
      Machine.Framed frame (deliver interrupts) :=
    deliver_framed interrupts
  unfold synchronise
  infer_instance

/-- What the bookkeeping is made of. -/
theorem performanceAndSyncUpdate_framed (executedOp : Mapping) :
    Machine.Framed frame (performanceAndSyncUpdate cfg executedOp) := by
  have instructions : Machine.Framed frame
      (Machine.modifies countInstruction : HartM Unit) :=
    Machine.Framed.modifies keeps.instruction
  have cycles (newCycles : Nat) : Machine.Framed frame
      (Machine.modifies (countCycles newCycles) : HartM Unit) :=
    Machine.Framed.modifies (keeps.cycles newCycles)
  have ticked : Machine.Framed frame tickLrScCounter := tickLrScCounter_framed
  have advanced (newCycles : Nat) :
      Machine.Framed frame (advanceTime cfg newCycles) :=
    advanceTime_framed cfg newCycles
  have synchronised (advance : BitVec 64) :
      Machine.Framed frame (synchronise advance) :=
    synchronise_framed advance
  unfold performanceAndSyncUpdate
  infer_instance

/-- The rest of the end of a step resets the zero register and may note that
the hart terminates. -/
theorem finishStep_framed
    (zeroed : ∀ hart, frame.pre hart → frame.related hart (hart.setReg 0 0))
    (terminated : ∀ hart, frame.pre hart →
      frame.related hart { hart with status := .terminated }) :
    Machine.Framed frame (finishStep cfg) := by
  have resets : Machine.Framed frame
      (Machine.modifies fun hart => hart.setReg 0 0 : HartM Unit) :=
    Machine.Framed.modifies zeroed
  have terminates : Machine.Framed frame
      (Machine.modifies fun hart =>
        if hart.shallExit then { hart with status := .terminated }
        else hart : HartM Unit) := by
    refine Machine.Framed.modifies fun hart met => ?_
    split
    · exact terminated hart met
    · exact frame.refl hart
  have updated (executedOp : Mapping) :
      Machine.Framed frame (performanceAndSyncUpdate cfg executedOp) :=
    performanceAndSyncUpdate_framed cfg executedOp
  unfold finishStep
  infer_instance

end Bookkeeping

/-- What the end of a step keeps. -/
structure Settled (before after : Hart) : Prop where
  steady : Steady before after
  pc : after.pc = before.pc
  regs : ∀ regIdx, regIdx ≠ 0 → after.regs regIdx = before.regs regIdx

def settling : Frame Hart Fatal where
  pre _ := True
  related := Settled
  refl hart := ⟨.refl hart, rfl, fun _ _ => rfl⟩
  trans left right :=
    ⟨left.steady.trans right.steady, right.pc.trans left.pc,
      fun regIdx other =>
        (right.regs regIdx other).trans (left.regs regIdx other)⟩
  stable _ _ := trivial
  aborts reason := reason = .lrScCounterNegative

/-- An assignment to other fields. -/
theorem Settled.of_csrs {before after : Hart} (prv : after.prv = before.prv)
    (lastPc : after.lastPc = before.lastPc) (csrs : after.csrs = before.csrs)
    (pc : after.pc = before.pc) (regs : after.regs = before.regs) :
    Settled before after :=
  ⟨.of_csrs prv lastPc csrs, pc, fun regIdx _ => congrFun regs regIdx⟩

instance : Bookkeeps settling where
  interrupt event hart _ :=
    ⟨.interrupt hart event, hart.interrupt_pc event, fun regIdx _ =>
      congrFun (hart.interrupt_regs event) regIdx⟩
  lrScCounter _ _ _ := Settled.of_csrs rfl rfl rfl rfl rfl
  pipeline _ _ _ := Settled.of_csrs rfl rfl rfl rfl rfl
  lastCycles _ _ _ := Settled.of_csrs rfl rfl rfl rfl rfl
  instruction hart _ := by
    unfold countInstruction
    split
    · exact settling.refl hart
    · exact ⟨.set64 hart _ (.inr (.inr rfl)) (.inr (.inr rfl)), rfl,
        fun _ _ => rfl⟩
  cycles newCycles hart _ := by
    unfold countCycles
    split
    · exact settling.refl hart
    · exact Settled.of_csrs rfl rfl rfl rfl rfl
  negative := rfl

instance (cfg : Config) : Machine.Framed settling (finishStep cfg) :=
  finishStep_framed cfg
    (fun _ _ => ⟨.of_csrs rfl rfl rfl, rfl, fun _ other => if_neg other⟩)
    fun _ _ => Settled.of_csrs rfl rfl rfl rfl rfl

section Untrapped

variable (cfg : Config)

instance {α : Type} (question : Call) (receive : Reply question → α) :
    Machine.Untrapped (call question receive) :=
  inferInstanceAs (Machine.Untrapped (Machine.request question receive))

instance (interrupts : List InterruptEvent) :
    Machine.Untrapped (deliver interrupts) := by
  unfold deliver
  infer_instance

instance (observation : Observation) :
    Machine.Untrapped (observe observation) := by
  unfold observe
  infer_instance

instance : Machine.Untrapped Memory.waitForAccessRights := by
  unfold Memory.waitForAccessRights
  infer_instance

instance : Machine.Untrapped Memory.atomicUnlock := by
  unfold Memory.atomicUnlock
  infer_instance

instance (kind : StoreKind) (range : DmiRange) (bytes : Nat)
    (addr : BitVec 64) (data : BitVec (8 * bytes)) :
    Machine.Untrapped (Memory.dmiStore kind range bytes addr data) := by
  unfold Memory.dmiStore
  infer_instance

instance (kind : StoreKind) (bytes : Nat) (addr : BitVec 64)
    (data : BitVec (8 * bytes)) (ranges : List DmiRange) :
    Machine.Untrapped (Memory.dmiStores kind bytes addr data ranges) := by
  induction ranges with
  | nil => exact inferInstanceAs (Machine.Untrapped (pure ()))
  | cons range rest inductionHypothesis => exact Machine.Untrapped.bind _ _

instance : Machine.Untrapped releaseLrScReservation := by
  unfold releaseLrScReservation
  infer_instance

instance : Machine.Untrapped tickLrScCounter := by
  unfold tickLrScCounter
  infer_instance

instance (newCycles : Nat) : Machine.Untrapped (advanceTime cfg newCycles) := by
  unfold advanceTime
  infer_instance

instance (advance : BitVec 64) : Machine.Untrapped (synchronise advance) := by
  unfold synchronise
  infer_instance

instance (executedOp : Mapping) :
    Machine.Untrapped (performanceAndSyncUpdate cfg executedOp) := by
  unfold performanceAndSyncUpdate
  infer_instance

instance : Machine.Untrapped (finishStep cfg) := by
  unfold finishStep
  infer_instance

end Untrapped

/-- Every outcome of the end of a step. -/
theorem finishStep_all (cfg : Config) (hart : Hart) :
    (finishStep cfg hart).All fun outcome =>
      (∃ after, outcome = .done () after ∧ Settled hart after) ∨
        outcome = .abort .lrScCounterNegative := by
  have settled : (finishStep cfg hart).All (settling.post hart) :=
    Machine.Framed.framed hart trivial
  have trapless := (inferInstance : Machine.Untrapped (finishStep cfg)).untrapped
    hart
  rw [Program.all_iff_reaches] at settled trapless ⊢
  intro outcome reached
  have within := settled outcome reached
  cases outcome with
  | done value after =>
      exact .inl ⟨after, rfl, (Frame.post_done _ _ _ _).1 within⟩
  | trap trap after => exact absurd rfl (trapless _ reached trap after)
  | abort reason =>
      obtain rfl := (Frame.post_abort _ _ _).1 within
      exact .inr rfl

/-- The end of a step does not move a hart away from its handler. -/
theorem Settled.atHandler {before after : Hart}
    (settled : Settled before after) (entered : before.atHandler) :
    after.atHandler := by
  have kept (register : Register) (stable : register.isVolatile = false) :
      after.csrs register = before.csrs register :=
    settled.steady.csr register stable
  unfold Hart.atHandler at entered ⊢
  rw [settled.pc, settled.steady.prv, entered]
  unfold handlerOf
  split
  · rw [kept machineTrap.tvec rfl, kept machineTrap.cause rfl]
  split
  · rw [kept supervisorTrap.tvec rfl, kept supervisorTrap.cause rfl]
  · rw [kept userTrap.tvec rfl, kept userTrap.cause rfl]

/-! ## The whole step -/

/-- The step executes: no register check fails and no breakpoint stops it. -/
def Hart.begins (hart : Hart) : Prop :=
  hart.regs 0 = 0 ∧ (hart.debugMode && hart.breakpoints hart.pc) = false

/-- The hart with the address of the instruction noted. -/
def Hart.starting (hart : Hart) : Hart := { hart with lastPc := hart.pc }

section Whole

variable (property : Outcome Hart SimulationTrap Fatal StepEvent → Prop)

/-- The property survives the end of the step. -/
def Finishes : Outcome Hart SimulationTrap Fatal StepEvent → Prop
  | .done event hart =>
      (∀ after, Settled hart after → property (.done event after)) ∧
        property (.abort .lrScCounterNegative)
  | .trap _ _ => False
  | .abort reason => property (.abort reason)

/-- The property holds however the instruction's completion is followed up. -/
def AfterInstruction (hart : Hart) : Prop :=
  ∀ outcome, InterruptChoice hart outcome → Finishes property outcome

/-- The property holds however the instruction's trap is handled. -/
def AfterTrap (trap : SimulationTrap) (hart : Hart) : Prop :=
  ∀ outcome, TrapHandling trap hart outcome → Finishes property outcome

/-- The property holds after the instruction, whether it completes or traps. -/
def AfterExecution : Outcome Hart SimulationTrap Fatal Unit → Prop
  | .done _ hart => AfterInstruction property hart
  | .trap trap hart => AfterTrap property trap hart
  | .abort reason => property (.abort reason)

variable {property}

section Surrounded

variable {G : Type} {surroundings : Surroundings Reply G} {world : G}

/-- `exec_step` inside the `try` block. -/
theorem takeStep_under (cfg : Config) (hart : Hart)
    (executes : (execStep cfg hart).Under surroundings.monitor world
      fun _ => AfterExecution property) :
    (takeStep cfg hart).Under surroundings.monitor world
      fun _ => Finishes property := by
  unfold takeStep
  rw [Machine.under_catchTrap, Machine.under_bind]
  refine executes.mono fun later outcome holds => ?_
  cases outcome with
  | done value middle =>
      refine ((takeInterrupt_all middle).under surroundings later).mono
        fun _ choice chosen => ?_
      have finishes := holds choice chosen
      cases chosen <;> exact finishes
  | trap trap middle =>
      exact ((takeTrap_all trap middle).under surroundings later).mono
        fun _ handling handled => holds handling handled
  | abort reason => exact holds

/-- A property of every way in which a step can end. -/
theorem runStep_under (cfg : Config) (hart : Hart)
    (clobbered : property (.abort .zeroRegisterClobbered))
    (stops : ¬ hart.begins → property
      (.done .hitBreakpoint { hart with status := .hitBreakpoint }))
    (executes : hart.begins →
      (execStep cfg hart.starting).Under surroundings.monitor world
        fun _ => AfterExecution property) :
    (runStep cfg hart).Under surroundings.monitor world
      fun _ => property := by
  unfold runStep
  rw [Machine.under_bind, Machine.reads_apply, Program.under_ret]
  dsimp only [id]
  by_cases zero : hart.regs 0 = 0
  · rw [show (hart.regs 0 == 0) = true by simpa using zero,
      Machine.assert_true, Machine.under_bind, Machine.pure_apply,
      Program.under_ret]
    dsimp only
    rw [Machine.ite_apply]
    split
    next breakpoint =>
      refine stops fun begins => ?_
      rw [begins.2] at breakpoint
      cases breakpoint
    next continues =>
      rw [Machine.under_bind, Machine.modifies_apply, Program.under_ret]
      dsimp only
      rw [Machine.under_bind]
      have begins : hart.begins := ⟨zero, by simpa using continues⟩
      refine (takeStep_under cfg hart.starting (executes begins)).mono
        fun later outcome finishes => ?_
      cases outcome with
      | done event middle =>
          dsimp only
          rw [Machine.under_bind]
          refine ((finishStep_all cfg middle).under surroundings later).mono
            fun _ last finished => ?_
          rcases finished with ⟨after, rfl, settled⟩ | rfl
          · exact finishes.1 after settled
          · exact finishes.2
      | trap trap middle => exact finishes.elim
      | abort reason => exact finishes
  · rw [show (hart.regs 0 == 0) = false by simpa using zero,
      Machine.assert_false, Machine.under_bind, Machine.abort_apply,
      Program.under_ret]
    exact clobbered

/-- `exec_step` in its two halves. -/
theorem execStep_under (cfg : Config) (hart : Hart)
    {holds : G → Outcome Hart SimulationTrap Fatal Unit → Prop}
    (issues : (issue cfg hart).Under surroundings.monitor world
      fun last outcome =>
        match outcome with
        | .done _ decoded =>
            (Machine.answering (perform cfg)
              (execute cfg decoded.instr decoded.op) decoded).Under
                surroundings.monitor last holds
        | .trap trap middle => holds last (.trap trap middle)
        | .abort reason => holds last (.abort reason)) :
    (execStep cfg hart).Under surroundings.monitor world holds := by
  unfold execStep
  rw [Machine.under_bind]
  refine issues.mono fun last outcome rest => ?_
  cases outcome <;> exact rest

end Surrounded

end Whole

end Rv32

end RiscvVp
