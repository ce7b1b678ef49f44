import RiscvVp.Rv32.Step

/-!
# Runs

A run starts from a booted hart, takes one step after another and receives
interrupts in between.  The surroundings are a parameter: what they reply is
up to them, and they move with every exchange.

A run may be restricted to steps whose instruction is admitted.  What every
booted hart satisfies, and every admitted step and every interrupt preserve,
holds along the whole run.
-/

namespace RiscvVp

namespace Rv32

open Interaction

section Run

variable {G : Type} (cfg : Config) (surroundings : Surroundings Reply G)

/-- An instruction that a step from this state fetches and decodes. -/
def Issues (world : G) (hart decoded : Hart) : Prop :=
  hart.begins ∧ ∃ later,
    (issue cfg hart.starting).ReachesIn surroundings world later
      (.done () decoded)

/-- What the platform may set up before the first step. -/
inductive Boots : Hart → Prop
  | reset (hartId : BitVec 32) (useEBaseIsa : Bool) (entrypoint sp : BitVec 32)
      (debugMode ignoreWfi : Bool) (breakpoints : BitVec 32 → Bool) :
      Boots { Hart.reset hartId useEBaseIsa entrypoint sp with
        debugMode := debugMode
        ignoreWfi := ignoreWfi
        breakpoints := breakpoints }

/-- The states of a run whose instructions are admitted. -/
inductive Run (admits : Hart → Prop) : G → Hart → Prop
  | boot (world : G) {hart : Hart} (boots : Boots hart) :
      Run admits world hart
  | interrupted {world : G} {hart : Hart} (event : InterruptEvent)
      (run : Run admits world hart) :
      Run admits world (hart.interrupt event)
  | step {world later : G} {hart after : Hart} {event : StepEvent}
      (run : Run admits world hart)
      (admitted : ∀ decoded,
        Issues cfg surroundings world hart decoded → admits decoded)
      (steps : (runStep cfg hart).ReachesIn surroundings world later
        (.done event after)) :
      Run admits later after

/-- The states of any run. -/
abbrev Reachable : G → Hart → Prop :=
  Run cfg surroundings fun _ => True

variable {cfg surroundings}

theorem Run.mono {admits weaker : Hart → Prop} {world : G} {hart : Hart}
    (run : Run cfg surroundings admits world hart)
    (implies : ∀ decoded, admits decoded → weaker decoded) :
    Run cfg surroundings weaker world hart := by
  induction run with
  | boot world boots => exact .boot world boots
  | interrupted event run inductionHypothesis =>
      exact .interrupted event inductionHypothesis
  | step run admitted steps inductionHypothesis =>
      exact .step inductionHypothesis
        (fun decoded issued => implies decoded (admitted decoded issued)) steps

/-- What a run preserves. -/
theorem Run.invariant {admits invariant : Hart → Prop} {world : G}
    {hart : Hart} (run : Run cfg surroundings admits world hart)
    (boot : ∀ hart, Boots hart → invariant hart)
    (interrupted : ∀ hart event, invariant hart →
      invariant (hart.interrupt event))
    (step : ∀ world hart, invariant hart →
      (∀ decoded, Issues cfg surroundings world hart decoded →
        admits decoded) →
      (runStep cfg hart).Under surroundings.monitor world fun _ outcome =>
        ∀ event after, outcome = .done event after → invariant after) :
    invariant hart := by
  induction run with
  | boot world boots => exact boot _ boots
  | interrupted event run inductionHypothesis =>
      exact interrupted _ event inductionHypothesis
  | step run admitted steps inductionHypothesis =>
      exact (Program.under_iff_reachesIn _ _ _).1
        (step _ _ inductionHypothesis admitted) _ _ steps _ _ rfl

end Run

/-! ## Aborts -/

/-- How `exec_step` may end the simulator. -/
def isExecStepAbort (reason : Fatal) : Prop :=
  isServiceAbort reason ∨ reason = .mmuMode ∨ reason = .unknownOpcode ∨
    reason = .oddPc ∨ reason = .softfloatFlags ∨
    reason = .unknownPrivilegeLevel

/-- An opcode that has a case does not lead to the default. -/
theorem execute_abort (cfg : Config) (instr : Instruction) {op : Mapping}
    (accepted : hasCase op = true) (hart : Hart) :
    (Machine.answering (perform cfg) (execute cfg instr op) hart).All
      fun outcome => ∀ reason, outcome = .abort reason →
        isExecStepAbort reason ∧ reason ≠ .unknownOpcode := by
  cases returns : returnMode op with
  | none =>
      refine (execute_executed cfg .any accepted returns
        fun _ _ => trivial).mono fun outcome executed reason ended => ?_
      unfold isExecStepAbort
      rcases executed.2 reason ended with
        (service | rfl) | rfl | rfl | ⟨rfl, _⟩
      · refine ⟨.inl service, ?_⟩
        rintro rfl
        simp [isServiceAbort] at service
      · simp
      · simp
      · simp
      · simp
  | some mode =>
      rcases returnMode_cases returns with rfl | rfl | rfl
      · rw [execute_uret, Program.all_ret]
        split <;> (intro reason contradiction; cases contradiction)
      · by_cases checked : hart.sretLegal
        · rw [execute_sret_of_legal cfg _ _ checked, Program.all_ret]
          intro reason contradiction
          cases contradiction
        · rw [execute_sret_of_not_legal cfg _ _ checked, Program.all_ret]
          intro reason contradiction
          cases contradiction
      · rw [execute_mret, Program.all_ret]
        intro reason contradiction
        cases contradiction

/-- Nothing before the switch ends the simulator but its services. -/
theorem issue_abort (cfg : Config) (hart : Hart) :
    (issue cfg hart).All fun outcome => ∀ reason,
      outcome = .abort reason → isServiceAbort reason ∨ reason = .mmuMode := by
  have framed : Machine.Framed (Guard.any.frame true) (issue cfg) :=
    inferInstance
  refine (framed.framed hart trivial).mono fun outcome within => ?_
  rintro reason rfl
  exact (Frame.post_abort _ _ _).1 within

theorem execStep_abort (cfg : Config) (hart : Hart) :
    (execStep cfg hart).All fun outcome => ∀ reason,
      outcome = .abort reason → isExecStepAbort reason := by
  unfold execStep
  rw [Machine.all_bind]
  refine (issue_abort cfg hart).mono fun outcome listed => ?_
  cases outcome with
  | done value decoded =>
      dsimp only [executeDecoded]
      rw [Machine.all_bind, Machine.reads_apply, Program.all_ret]
      dsimp only [id]
      cases accepted : hasCase decoded.op with
      | false =>
          rw [execute_of_not_hasCase cfg _ _ accepted, Program.all_ret]
          rintro reason ⟨⟩
          exact .inr (.inr (.inl rfl))
      | true =>
          exact (execute_abort cfg _ accepted decoded).mono
            fun outcome ends reason ended => (ends reason ended).1
  | trap trap middle =>
      intro reason contradiction
      cases contradiction
  | abort reason =>
      rintro reason' ⟨⟩
      exact (listed reason rfl).imp_right .inl

/-! ## Enduring properties -/

/-- The property survives an instruction. -/
structure Persistent (property : Hart → Prop) : Prop where
  steady : ∀ {before after}, property before → Steady before after →
    property after
  executed : ∀ {op instr before after}, property before →
    Executed op instr before after → property after
  returns : ∀ {hart}, property hart → property (machineReturn hart) ∧
    property (supervisorReturn hart) ∧ property (userReturn hart)

/-- The property survives everything that a step is made of. -/
structure Enduring (property : Hart → Prop) : Prop extends
    Persistent property where
  starting : ∀ {hart}, property hart → property hart.starting
  recorded : ∀ {hart} mode word, property hart →
    property (hart.setCsr (handlerOf mode).cause word) ∧
      property (hart.setCsr (handlerOf mode).tval word)
  enters : ∀ {mode hart entered}, property hart →
    enter mode hart = some entered → property entered

namespace Persistent

variable {property : Hart → Prop} (persistent : Persistent property)

include persistent

theorem of_csrs {before after : Hart} (holds : property before)
    (prv : after.prv = before.prv) (lastPc : after.lastPc = before.lastPc)
    (csrs : after.csrs = before.csrs) : property after :=
  persistent.steady holds (.of_csrs prv lastPc csrs)

theorem execute (cfg : Config) (op : Mapping) (instr : Instruction)
    {hart : Hart} (holds : property hart) :
    (Machine.answering (perform cfg) (execute cfg instr op) hart).All
      (Outcome.Leaves property) := by
  cases accepted : hasCase op with
  | false =>
      rw [execute_of_not_hasCase cfg _ _ accepted, Program.all_ret]
      exact Outcome.leaves_abort _ _
  | true =>
      cases returns : returnMode op with
      | none =>
          refine (execute_executed cfg .any accepted returns
            fun _ _ => trivial).mono fun outcome executed after reached => ?_
          exact persistent.executed holds (executed.1 after reached)
      | some mode =>
          obtain ⟨machine, supervisor, user⟩ := persistent.returns holds
          rcases returnMode_cases returns with rfl | rfl | rfl
          · rw [execute_uret, Program.all_ret]
            split <;> simpa
          · by_cases checked : hart.sretLegal
            · rw [execute_sret_of_legal cfg _ _ checked, Program.all_ret]
              simpa
            · rw [execute_sret_of_not_legal cfg _ _ checked, Program.all_ret]
              simpa
          · rw [execute_mret, Program.all_ret]
            simpa

theorem issue (cfg : Config) {hart : Hart} (holds : property hart) :
    (issue cfg hart).All (Outcome.Leaves property) := by
  have framed : Machine.Framed (Guard.any.frame true) (Rv32.issue cfg) :=
    inferInstance
  exact (framed.framed hart trivial).mono fun outcome within after reached =>
    persistent.steady holds (within.1 after reached).1

theorem execStep (cfg : Config) {hart : Hart} (holds : property hart) :
    (execStep cfg hart).All (Outcome.Leaves property) := by
  unfold Rv32.execStep
  rw [Machine.all_bind]
  refine (persistent.issue cfg holds).mono fun outcome kept => ?_
  cases outcome with
  | done value decoded =>
      exact persistent.execute cfg _ _ ((Outcome.leaves_done _ _ _).1 kept)
  | trap trap middle => simpa using kept
  | abort reason => exact Outcome.leaves_abort _ _

end Persistent

namespace Enduring

variable {property : Hart → Prop} (enduring : Enduring property)

include enduring

/-- The end of a step, after an event. -/
theorem finishes {hart : Hart} (event : StepEvent) (holds : property hart) :
    Finishes (Outcome.Leaves property) (.done event hart) :=
  ⟨fun _ settled => (Outcome.leaves_done _ _ _).2 <|
    enduring.steady holds settled.steady, Outcome.leaves_abort _ _⟩

theorem afterInstruction {hart : Hart} (holds : property hart) :
    AfterInstruction (Outcome.Leaves property) hart := by
  intro outcome chosen
  cases chosen with
  | retired idle => exact enduring.finishes _ holds
  | taken due chosen enters =>
      exact enduring.finishes _ <|
        enduring.enters (enduring.recorded _ _ holds).1 enters
  | lost due nothing => exact Outcome.leaves_abort _ _

theorem afterTrap (trap : SimulationTrap) {hart : Hart}
    (holds : property hart) :
    AfterTrap (Outcome.Leaves property) trap hart := by
  intro outcome handled
  cases handled with
  | taken fits enters =>
      have rewound : property hart.rewound :=
        enduring.of_csrs holds rfl rfl rfl
      have recorded : property
          (Rv32.recorded (handlerOf (trapTarget hart trap.reason)) trap
            hart.rewound) :=
        (enduring.recorded _ _ (enduring.recorded _ _ rewound).1).2
      exact enduring.finishes _ (enduring.enters recorded enters)
  | badLexicalCast wide => exact Outcome.leaves_abort _ _
  | delegation user elsewhere => exact Outcome.leaves_abort _ _

theorem runStep {G : Type} (cfg : Config)
    (surroundings : Surroundings Reply G) (world : G) {hart : Hart}
    (holds : property hart) :
    (runStep cfg hart).Under surroundings.monitor world
      fun _ => Outcome.Leaves property := by
  refine runStep_under cfg hart (Outcome.leaves_abort _ _)
    (fun _ => ?_) fun _ => ?_
  · rw [Outcome.leaves_done]
    exact enduring.of_csrs holds rfl rfl rfl
  have starts : property hart.starting := enduring.starting holds
  refine ((enduring.execStep cfg starts).under surroundings world).mono
    fun _ outcome kept => ?_
  cases outcome with
  | done value middle =>
      exact enduring.afterInstruction ((Outcome.leaves_done _ _ _).1 kept)
  | trap trap middle =>
      exact enduring.afterTrap trap ((Outcome.leaves_trap _ _ _).1 kept)
  | abort reason => exact Outcome.leaves_abort _ _

/-- An enduring property of every booted hart holds along every run. -/
theorem run {G : Type} {cfg : Config} {surroundings : Surroundings Reply G}
    {admits : Hart → Prop} {world : G} {hart : Hart}
    (boots : ∀ hart, Boots hart → property hart)
    (run : Run cfg surroundings admits world hart) : property hart := by
  refine run.invariant boots
    (fun hart event holds => enduring.steady holds (.interrupt hart event))
    fun world hart holds _ => ?_
  refine (enduring.runStep cfg surroundings world holds).mono
    fun _ outcome leaves event after ended => ?_
  exact leaves after (by rw [ended]; rfl)

end Enduring

end Rv32

end RiscvVp
