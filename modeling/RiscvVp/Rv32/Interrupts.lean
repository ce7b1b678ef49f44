import Mathlib
import RiscvVp.Rv32.Platform

/-!
# Interrupts by the privileged rule

An interrupt is pending and enabled in its two registers, is destined for a
mode by the two delegation registers, and is accepted by that mode when the
hart runs at a lower one or at that very one with its enable set.  The rule
takes the highest mode with an accepted interrupt and, for that mode, the
first of its interrupts in a fixed order.

`computePendingInterrupts` and `prepareInterrupt` do what the rule says.  That
one of the nine interrupts is found depends on the masks of `mie`, which let
no other bit be set in any run.
-/

namespace RiscvVp

namespace Rv32

open Bits Csr Interaction

/-! ## The rule -/

/-- The interrupts from the highest priority to the lowest: external, software
and timer, first of machine mode, then of supervisor mode, then of user
mode. -/
def interruptOrder : List Nat := [11, 3, 7, 9, 1, 5, 8, 0, 4]

/-- The mode that handles the interrupt. -/
def Hart.destination (hart : Hart) (interrupt : Nat) : PrivilegeLevel :=
  if !(hart.csrs .mideleg).getLsbD interrupt then machineMode
  else if !(hart.csrs .sideleg).getLsbD interrupt then supervisorMode
  else userMode

/-- The interrupt enable of the mode in `mstatus`. -/
def globalEnable (mode : PrivilegeLevel) : BitField 32 :=
  if mode = machineMode then Mstatus.mie
  else if mode = supervisorMode then Mstatus.sie
  else Mstatus.uie

/-- The mode takes its interrupts now. -/
def Hart.accepts (hart : Hart) (mode : PrivilegeLevel) : Bool :=
  hart.prv < mode ||
    hart.prv == mode && (globalEnable mode).isSet (hart.csrs .mstatus)

/-- The interrupt is pending, enabled and destined for the mode. -/
def Hart.isWaiting (hart : Hart) (mode : PrivilegeLevel) (interrupt : Nat) :
    Bool :=
  (hart.csrs .mie).getLsbD interrupt && (hart.csrs .mip).getLsbD interrupt &&
    hart.destination interrupt == mode

/-- Some interrupt waits for a mode that takes it now. -/
def Hart.hasEnabledInterrupt (hart : Hart) : Prop :=
  ∃ mode interrupt, hart.accepts mode = true ∧
    hart.isWaiting mode interrupt = true

/-- The interrupt that the rule takes, and the mode that it is taken in. -/
structure Due (hart : Hart) (mode : PrivilegeLevel) (interrupt : Nat) :
    Prop where
  accepted : hart.accepts mode = true
  highest : ∀ other interrupt, hart.accepts other = true →
    hart.isWaiting other interrupt = true → other ≤ mode
  first : interruptOrder.find? (hart.isWaiting mode) = some interrupt

/-! ## The computation -/

/-- The pending and enabled interrupts destined for a mode. -/
def Hart.waiting (hart : Hart) (mode : PrivilegeLevel) : BitVec 32 :=
  let pending := hart.csrs .mie &&& hart.csrs .mip
  if mode = machineMode then pending &&& ~~~hart.csrs .mideleg
  else if mode = supervisorMode then
    pending &&& hart.csrs .mideleg &&& ~~~hart.csrs .sideleg
  else pending &&& hart.csrs .mideleg &&& hart.csrs .sideleg

section Rule

variable (hart : Hart)

theorem getLsbD_waiting {mode : PrivilegeLevel} (valid : mode.isValid)
    (interrupt : Nat) :
    (hart.waiting mode).getLsbD interrupt =
      hart.isWaiting mode interrupt := by
  by_cases bounded : interrupt < 32
  · unfold Hart.waiting Hart.isWaiting Hart.destination
    rcases valid with rfl | rfl | rfl <;>
      cases machine : (hart.csrs .mideleg).getLsbD interrupt <;>
      cases supervisor : (hart.csrs .sideleg).getLsbD interrupt <;>
      simp only [PrivilegeLevel.userMode_ne_machineMode,
        PrivilegeLevel.supervisorMode_ne_machineMode,
        PrivilegeLevel.userMode_ne_supervisorMode, if_true, if_false,
        BitVec.getLsbD_and, BitVec.getLsbD_not, machine, supervisor, bounded,
        decide_true] <;>
      simp [beq_eq_decide]
  · have outside (register : Register) :
        (hart.csrs register).getLsbD interrupt = false :=
      BitVec.getLsbD_of_ge _ _ (Nat.le_of_not_lt bounded)
    have beyond : (hart.waiting mode).getLsbD interrupt = false :=
      BitVec.getLsbD_of_ge _ _ (Nat.le_of_not_lt bounded)
    rw [beyond, Hart.isWaiting, outside]
    rfl

/-- Only the three modes have interrupts. -/
theorem isValid_of_isWaiting {mode : PrivilegeLevel} {interrupt : Nat}
    (waits : hart.isWaiting mode interrupt = true) : mode.isValid := by
  have destined : hart.destination interrupt = mode := by
    unfold Hart.isWaiting at waits
    simp only [Bool.and_eq_true, beq_iff_eq] at waits
    exact waits.2
  rw [← destined]
  unfold Hart.destination
  split
  · exact .inl rfl
  split
  · exact .inr (.inl rfl)
  · exact .inr (.inr rfl)

/-- A mode has waiting interrupts exactly when its word is not zero. -/
theorem waiting_ne_zero_iff {mode : PrivilegeLevel} (valid : mode.isValid) :
    hart.waiting mode ≠ 0#32 ↔
      ∃ interrupt, hart.isWaiting mode interrupt = true := by
  constructor
  · intro nonzero
    by_contra none
    refine nonzero (BitVec.eq_of_getLsbD_eq fun i _ => ?_)
    rw [getLsbD_waiting hart valid, BitVec.getLsbD_zero]
    exact Bool.eq_false_iff.2 fun waits => none ⟨i, waits⟩
  · rintro ⟨interrupt, waits⟩ zero
    rw [← getLsbD_waiting hart valid, zero, BitVec.getLsbD_zero] at waits
    cases waits

/-- The computation, mode by mode from the highest. -/
theorem computePendingInterrupts_eq :
    computePendingInterrupts hart =
      if hart.waiting machineMode ≠ 0#32 ∧ hart.accepts machineMode then
        ⟨machineMode, hart.waiting machineMode⟩
      else if hart.waiting supervisorMode ≠ 0#32 ∧
          hart.accepts supervisorMode then
        ⟨supervisorMode, hart.waiting supervisorMode⟩
      else if hart.waiting userMode ≠ 0#32 ∧ hart.accepts userMode then
        ⟨userMode, hart.waiting userMode⟩
      else ⟨noneMode, 0⟩ := by
  have accepts (mode : PrivilegeLevel) : hart.accepts mode = true ↔
      hart.prv < mode ∨ hart.prv = mode ∧
        (globalEnable mode).isSet (hart.csrs .mstatus) = true := by
    simp [Hart.accepts]
  have below : ¬ hart.prv < userMode := BitVec.not_lt_zero
  simp only [accepts, below, false_or]
  unfold computePendingInterrupts Hart.waiting
  by_cases nothing : hart.csrs .mie &&& hart.csrs .mip = 0#32
  · simp [nothing]
  · simp [nothing, globalEnable]

/-- The chain of tests goes through the interrupts in their order. -/
theorem code_highestPriority (pending : BitVec 32) :
    (highestPriority pending).map ExceptionCode.code =
      interruptOrder.find? pending.getLsbD := by
  have test (bit : Bool) (exc : ExceptionCode)
      (rest : Option ExceptionCode) :
      (if bit = true then some exc else rest).map ExceptionCode.code =
        match bit with
        | true => some exc.code
        | false => rest.map ExceptionCode.code := by
    cases bit <;> rfl
  simp only [highestPriority, BitField.isSet_of_bit, test]
  rfl

/-- Every bit that `mie` can hold is one of the nine. -/
theorem mem_interruptOrder {interrupt : Nat}
    (bit : mieMask.getLsbD interrupt = true) : interrupt ∈ interruptOrder := by
  have bounded : interrupt < 32 := BitVec.lt_of_getLsbD bit
  have every : ∀ i : Fin 32, mieMask.getLsbD i = true →
      i.val ∈ interruptOrder := by
    decide
  exact every ⟨interrupt, bounded⟩ bit

/-- A mode with waiting interrupts has a first one. -/
theorem exists_first {mode : PrivilegeLevel}
    (within : Within mieMask (hart.csrs .mie)) (valid : mode.isValid)
    (nonzero : hart.waiting mode ≠ 0#32) :
    ∃ exc, highestPriority (hart.waiting mode) = some exc ∧
      interruptOrder.find? (hart.isWaiting mode) = some exc.code := by
  obtain ⟨interrupt, waits⟩ := (waiting_ne_zero_iff hart valid).1 nonzero
  have same : (hart.waiting mode).getLsbD = hart.isWaiting mode :=
    funext (getLsbD_waiting hart valid)
  have enabled : (hart.csrs .mie).getLsbD interrupt = true := by
    unfold Hart.isWaiting at waits
    simp only [Bool.and_eq_true] at waits
    exact waits.1.1
  have member : interrupt ∈ interruptOrder :=
    mem_interruptOrder ((within_iff _ _).1 within interrupt enabled)
  have found : (interruptOrder.find? (hart.isWaiting mode)).isSome :=
    List.find?_isSome.2 ⟨interrupt, member, waits⟩
  rw [← same, ← code_highestPriority, Option.isSome_map,
    Option.isSome_iff_exists] at found
  obtain ⟨exc, first⟩ := found
  refine ⟨exc, first, ?_⟩
  rw [← same, ← code_highestPriority, first]
  rfl

/-- What is computed is what the rule says. -/
theorem computePendingInterrupts_rule
    (within : Within mieMask (hart.csrs .mie)) :
    ((computePendingInterrupts hart).targetMode = noneMode ∧
        ¬ hart.hasEnabledInterrupt) ∨
      ((computePendingInterrupts hart).targetMode ≠ noneMode ∧
        ∃ exc, highestPriority (computePendingInterrupts hart).pending =
            some exc ∧
          Due hart (computePendingInterrupts hart).targetMode exc.code) := by
  have busy {mode : PrivilegeLevel} {interrupt : Nat}
      (accepted : hart.accepts mode = true)
      (waits : hart.isWaiting mode interrupt = true) :
      hart.waiting mode ≠ 0#32 ∧ hart.accepts mode = true :=
    ⟨(waiting_ne_zero_iff hart (isValid_of_isWaiting hart waits)).2
      ⟨interrupt, waits⟩, accepted⟩
  rw [computePendingInterrupts_eq]
  by_cases machine : hart.waiting machineMode ≠ 0#32 ∧
      hart.accepts machineMode = true
  · rw [if_pos machine]
    dsimp only
    obtain ⟨exc, chosen, first⟩ :=
      exists_first hart within (.inl rfl) machine.1
    refine .inr ⟨by decide, exc, chosen, machine.2, ?_, first⟩
    intro other interrupt accepted waits
    rcases isValid_of_isWaiting hart waits with rfl | rfl | rfl <;> decide
  rw [if_neg machine]
  by_cases supervisor : hart.waiting supervisorMode ≠ 0#32 ∧
      hart.accepts supervisorMode = true
  · rw [if_pos supervisor]
    dsimp only
    obtain ⟨exc, chosen, first⟩ :=
      exists_first hart within (.inr (.inl rfl)) supervisor.1
    refine .inr ⟨by decide, exc, chosen, supervisor.2, ?_, first⟩
    intro other interrupt accepted waits
    rcases isValid_of_isWaiting hart waits with rfl | rfl | rfl
    · exact absurd (busy accepted waits) machine
    · exact BitVec.le_refl _
    · decide
  rw [if_neg supervisor]
  by_cases user : hart.waiting userMode ≠ 0#32 ∧
      hart.accepts userMode = true
  · rw [if_pos user]
    dsimp only
    obtain ⟨exc, chosen, first⟩ :=
      exists_first hart within (.inr (.inr rfl)) user.1
    refine .inr ⟨by decide, exc, chosen, user.2, ?_, first⟩
    intro other interrupt accepted waits
    rcases isValid_of_isWaiting hart waits with rfl | rfl | rfl
    · exact absurd (busy accepted waits) machine
    · exact absurd (busy accepted waits) supervisor
    · exact BitVec.le_refl _
  rw [if_neg user]
  refine .inl ⟨rfl, ?_⟩
  rintro ⟨mode, interrupt, accepted, waits⟩
  rcases isValid_of_isWaiting hart waits with rfl | rfl | rfl
  · exact machine (busy accepted waits)
  · exact supervisor (busy accepted waits)
  · exact user (busy accepted waits)

/-- The rule never takes an interrupt in a mode below the hart's. -/
theorem Due.prv_le {hart : Hart} {mode : PrivilegeLevel} {interrupt : Nat}
    (due : Due hart mode interrupt) : hart.prv ≤ mode := by
  have accepted := due.accepted
  unfold Hart.accepts at accepted
  simp only [Bool.or_eq_true, decide_eq_true_eq, Bool.and_eq_true,
    beq_iff_eq] at accepted
  rcases accepted with below | ⟨same, _⟩
  · exact BitVec.le_of_lt below
  · exact same ▸ BitVec.le_refl _

end Rule

/-! ## Steps -/

/-- `mie` holds no other bit than those of the nine interrupts. -/
def MieWithin (hart : Hart) : Prop :=
  Within mieMask (hart.csrs .mie)

theorem mieWithin_enduring : Enduring MieWithin where
  starting within := within
  steady within steady := by
    unfold MieWithin at within ⊢
    rwa [steady.csr .mie rfl]
  executed within executed := executed.mie within
  returns within := ⟨within, within, within⟩
  recorded mode word within := by
    unfold handlerOf
    split
    · exact ⟨within, within⟩
    split
    · exact ⟨within, within⟩
    · exact ⟨within, within⟩
  enters within enters := by
    rcases enter_cases enters with ⟨_, rfl⟩ | ⟨_, rfl⟩ | ⟨_, rfl⟩
    · exact within
    · exact within
    · exact within

theorem mieWithin_of_boots {hart : Hart} (boots : Boots hart) :
    MieWithin hart := by
  cases boots
  exact Within.zero mieMask

section Steps

variable {G : Type} (cfg : Config) (surroundings : Surroundings Reply G)
  (world : G) (hart : Hart)

/-- The step executes its instruction without a trap and is here then. -/
def Completes (middle : Hart) : Prop :=
  hart.begins ∧ ∃ later,
    (execStep cfg hart.starting).ReachesIn surroundings world later
      (.done () middle)

/-- The interrupt was taken: the hart is in the mode, at its entry address,
and the cause names the interrupt. -/
structure Taken (mode : PrivilegeLevel) (interrupt : Nat) (after : Hart) :
    Prop where
  prv : after.prv = mode
  atHandler : after.atHandler
  isInterrupt : Mcause.interrupt.isSet
    (after.csrs (handlerOf mode).cause) = true
  code : (Mcause.exceptionCode.get
    (after.csrs (handlerOf mode).cause)).toNat = interrupt

/-- What a step does about interrupts.  After an instruction that completes it
follows the rule; a trap or a breakpoint leaves interrupts to a later step. -/
def FollowsRule : StepEvent → Hart → Prop
  | .retired, _ =>
      ∃ middle, Completes cfg surroundings world hart middle ∧
        ¬ middle.hasEnabledInterrupt
  | .interrupted x, after =>
      ∃ middle interrupt, Completes cfg surroundings world hart middle ∧
        Due middle x.targetMode interrupt ∧ middle.prv ≤ x.targetMode ∧
        Taken x.targetMode interrupt after
  | .trapped trap _, _ =>
      ∃ later middle, hart.begins ∧
        (execStep cfg hart.starting).ReachesIn surroundings world later
          (.trap trap middle)
  | .hitBreakpoint, _ => ¬ hart.begins

/-- The outcome of a step that follows the rule and found the interrupt it
looked for. -/
def EndsByRule (outcome : Outcome Hart SimulationTrap Fatal StepEvent) :
    Prop :=
  outcome ≠ .abort .noPendingInterrupt ∧
    ∀ event after, outcome = .done event after →
      FollowsRule cfg surroundings world hart event after

/-- The step follows the rule. -/
def StepsByRule : Prop :=
  (runStep cfg hart).Under surroundings.monitor world fun _ =>
    EndsByRule cfg surroundings world hart

variable {cfg surroundings world hart}

/-- The handler finds the cause that was set before it was entered. -/
theorem taken_of_enter {mode : PrivilegeLevel} {exc : ExceptionCode}
    {middle entered after : Hart}
    (enters : enter mode
      (setCause middle (handlerOf mode).cause 1 exc.code) = some entered)
    (settled : Settled entered after) : Taken mode exc.code after := by
  have cause : after.csrs (handlerOf mode).cause =
      Mcause.exceptionCode.set (BitVec.ofNat 31 exc.code)
        (Mcause.interrupt.set 1
          (middle.csrs (handlerOf mode).cause)) := by
    have stable : (handlerOf mode).cause.isVolatile = false := by
      unfold handlerOf
      split
      · rfl
      split <;> rfl
    rw [settled.steady.csr _ stable]
    rcases enter_cases enters with ⟨rfl, rfl⟩ | ⟨rfl, rfl⟩ | ⟨rfl, rfl⟩ <;> rfl
  refine ⟨?_, settled.atHandler (atHandler_of_enter enters), ?_, ?_⟩
  · rw [settled.steady.prv, prv_of_enter enters]
  · rw [cause, BitField.isSet,
      BitField.get_set_of_disjoint (.inr (by decide)),
      BitField.get_set_same]
    rfl
  · have small : exc.code < 2 ^ 31 := by cases exc <;> decide
    rw [cause, BitField.get_set_same, BitVec.toNat_ofNat,
      Nat.mod_eq_of_lt small]

namespace EndsByRule

theorem done {event : StepEvent} {after : Hart}
    (follows : FollowsRule cfg surroundings world hart event after) :
    EndsByRule cfg surroundings world hart (.done event after) := by
  constructor
  · intro contradiction
    cases contradiction
  · rintro event' after' ⟨⟩
    exact follows

theorem abort {reason : Fatal} (other : reason ≠ .noPendingInterrupt) :
    EndsByRule cfg surroundings world hart (.abort reason) := by
  constructor
  · rintro ⟨⟩
    exact other rfl
  · intro event after contradiction
    cases contradiction

/-- A step that ends with an event follows the rule whenever the event
does. -/
theorem finishes {event : StepEvent} {entered : Hart}
    (follows : ∀ after, Settled entered after →
      FollowsRule cfg surroundings world hart event after) :
    Finishes (EndsByRule cfg surroundings world hart)
      (.done event entered) :=
  ⟨fun after settled => .done (follows after settled), .abort nofun⟩

end EndsByRule

/-- What a step does after its instruction has completed. -/
theorem afterInstruction_endsByRule {middle : Hart}
    (within : MieWithin middle)
    (completes : Completes cfg surroundings world hart middle) :
    AfterInstruction (EndsByRule cfg surroundings world hart) middle := by
  intro outcome chosen
  have rule := computePendingInterrupts_rule middle within
  cases chosen with
  | retired idle =>
      rcases rule with ⟨_, none⟩ | ⟨due, _⟩
      · exact EndsByRule.finishes fun _ _ => ⟨middle, completes, none⟩
      · exact absurd idle due
  | taken due chosen enters =>
      rcases rule with ⟨idle, _⟩ | ⟨_, exc, first, isDue⟩
      · exact absurd idle due
      · rw [chosen] at first
        cases first
        exact EndsByRule.finishes fun _ settled =>
          ⟨middle, _, completes, isDue, isDue.prv_le,
            taken_of_enter enters settled⟩
  | lost due nothing =>
      rcases rule with ⟨idle, _⟩ | ⟨_, exc, first, _⟩
      · exact absurd idle due
      · rw [nothing] at first
        cases first

/-- A trap is handled without a look at the interrupts. -/
theorem afterTrap_endsByRule {later : G} {trap : SimulationTrap}
    {middle : Hart} (begins : hart.begins)
    (traps : (execStep cfg hart.starting).ReachesIn surroundings world later
      (.trap trap middle)) :
    AfterTrap (EndsByRule cfg surroundings world hart) trap middle := by
  intro outcome handled
  cases handled with
  | taken fits enters =>
      exact EndsByRule.finishes fun _ _ => ⟨later, middle, begins, traps⟩
  | badLexicalCast wide => exact EndsByRule.abort nofun
  | delegation user elsewhere => exact EndsByRule.abort nofun

/-- Every step of every run follows the rule. -/
theorem stepsByRule_of_run
    (run : Run cfg surroundings (fun _ => True) world hart) :
    StepsByRule cfg surroundings world hart := by
  have within : MieWithin hart :=
    mieWithin_enduring.run (fun _ boots => mieWithin_of_boots boots) run
  refine runStep_under cfg hart (.abort nofun) (fun stopped => .done stopped)
    fun begins => ?_
  have kept := (Program.all_iff_reaches _ _).1 <|
    mieWithin_enduring.execStep cfg (mieWithin_enduring.starting within)
  have aborts := (Program.all_iff_reaches _ _).1 <|
    execStep_abort cfg hart.starting
  rw [Program.under_iff_reachesIn]
  intro later outcome reached
  cases outcome with
  | done value middle =>
      exact afterInstruction_endsByRule
        ((Outcome.leaves_done _ _ _).1 (kept _ reached.reaches))
        ⟨begins, later, reached⟩
  | trap trap middle => exact afterTrap_endsByRule begins reached
  | abort reason =>
      refine EndsByRule.abort ?_
      rintro rfl
      have listed := aborts _ reached.reaches _ rfl
      simp [isExecStepAbort, isServiceAbort] at listed

/-- A program that enables software and timer interrupts, and then does
nothing. -/
def idleWithInterrupts : List (BitVec 32) :=
  [0x08800293, 0x3042A073, 0x30046073, 0x00000013]

/-- Both interrupts wait, and the step takes the one of the software. -/
def takesSoftware (hart : Hart) :
    Outcome Hart SimulationTrap Fatal StepEvent → Bool
  | .done (.interrupted _) after =>
      hart.isWaiting machineMode 3 && hart.isWaiting machineMode 7 &&
        (Mcause.exceptionCode.get (after.csrs .mcause)).toNat == 3
  | _ => false

theorem stepsByRule_idleWithInterrupts :
    ∃ world hart later outcome,
      (runStep Platform.config hart).ReachesIn Platform.surroundings world later
        outcome ∧
      takesSoftware hart outcome = true ∧
      StepsByRule Platform.config Platform.surroundings world hart := by
  obtain ⟨world, hart, later, outcome, reachable, steps, checked⟩ :=
    Platform.exists_of_nextStep idleWithInterrupts 3
      [.software true, .timer true] takesSoftware (by decide +kernel)
  exact ⟨world, hart, later, outcome, steps, checked,
    stepsByRule_of_run reachable⟩

/-- A program of three instructions that has enabled software interrupts when
it calls the environment. -/
def callWithInterrupts : List (BitVec 32) :=
  [0x30046073, 0x30446073, 0x00000073]

/-- The step traps while an interrupt is accepted in machine mode. -/
def trapsWhileAccepting (hart : Hart) :
    Outcome Hart SimulationTrap Fatal StepEvent → Bool
  | .done (.trapped _ _) _ =>
      hart.accepts machineMode && hart.isWaiting machineMode 3
  | _ => false

/-- An interrupt that is enabled when an instruction traps is not taken in that
step. -/
theorem not_interrupted_of_hasEnabledInterrupt :
    ¬ ∀ (cfg : Config) (world : Platform) (hart : Hart),
      Reachable cfg Platform.surroundings world hart →
        hart.hasEnabledInterrupt →
          (runStep cfg hart).Under Platform.surroundings.monitor world
            fun _ outcome => ∀ event after, outcome = .done event after →
              ∃ x, event = .interrupted x := by
  intro taken
  obtain ⟨world, hart, later, outcome, reachable, steps, checked⟩ :=
    Platform.exists_of_nextStep callWithInterrupts 2 [.software true]
      trapsWhileAccepting (by decide +kernel)
  unfold trapsWhileAccepting at checked
  split at checked
  next trap target after =>
    rw [Bool.and_eq_true] at checked
    obtain ⟨x, same⟩ := (Program.under_iff_reachesIn _ _ _).1
      (taken Platform.config world hart reachable
        ⟨machineMode, 3, checked.1, checked.2⟩) later _ steps _ _ rfl
    cases same
  next => cases checked

end Steps

end Rv32

end RiscvVp
