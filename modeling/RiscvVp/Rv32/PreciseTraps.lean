import Mathlib
import RiscvVp.Rv32.Alterations
import RiscvVp.Rv32.CsrLegality
import RiscvVp.Rv32.Footprint
import RiscvVp.Rv32.RoundTrip

/-!
# Precise traps

An instruction that traps has stored no data, and the handler finds the
address of the instruction in its exception program counter.  The integer
registers are what they were, with one exception: `SC.W` writes its failure
code before it stores, and the code stays when that store traps.

An action that may trap leaves the registers and memory alone when it does.
That leaves the order of the actions, which the discipline of the bodies is
about; the CSR instructions and `SC.W` write a register before their last
action that may trap, and have arguments of their own.
-/

namespace RiscvVp

namespace Rv32

open Csr Interaction

/-! ## The instructions -/

/-- When the instruction traps, the registers are these and nothing has been
altered. -/
def TrapsWith {G : Type}
    (restored : SimulationTrap → (BitVec 5 → BitVec 32) → Prop)
    (last : G × Bool) (outcome : Outcome Hart SimulationTrap Fatal Unit) :
    Prop :=
  ∀ cause after, outcome = .trap cause after →
    restored cause after.regs ∧ last.2 = false

namespace Progress

variable {op : Mapping} {instr : Instruction} {progress : Progress}
  {action : Action}

/-- What commits is remembered. -/
theorem of_after {answer : action.Answer}
    (idle : (progress.after action answer).committed = false) :
    progress.committed = false ∧ action.commits = false := by
  cases action with
  | setReg | storeData | atomicStoreWord | atomicStoreConditionalWord
  | executeSyscall | setCsrValue | returnFromTrapHandler => cases idle
  | isInvalidCsrAccess =>
      rw [after] at idle
      split at idle <;> exact ⟨idle, rfl⟩
  | _ => exact ⟨idle, rfl⟩

/-- Other instructions than these may trap only before they commit. -/
theorem committed_of_mayTrap (plain : isCsr op = false) (other : op ≠ .scW)
    (permitted : progress.permits op instr action)
    (traps : action.mayTrap = true) : progress.committed = false := by
  cases action with
  | raiseTrap | isInvalidCsrAccess | getCsrValue | loadData | storeData
  | amoLoadWord | atomicStoreWord | atomicLoadReservedWord =>
      exact permitted.2
  | atomicStoreConditionalWord =>
      cases committed : progress.committed with
      | false => rfl
      | true => exact absurd (permitted.2 committed) other
  | setCsrValue =>
      have csr := permitted.2.1
      rw [plain] at csr
      cases csr
  | _ => cases traps

end Progress

section Bodies

variable (cfg : Config) {G : Type} (surroundings : Surroundings Reply G)
  {instr : Instruction} {op : Mapping}

/-- One action where nothing has been altered so far. -/
theorem perform_intact {action : Action} {hart : Hart} {world : G × Bool}
    (unaltered : world.2 = false) :
    (perform cfg action hart).Under (surroundings.noting altered).monitor world
      fun last outcome =>
        match outcome with
        | .done _ after => action.commits = false →
            after.regs = hart.regs ∧ last.2 = false
        | .trap _ after => after.regs = hart.regs ∧ last.2 = false
        | .abort _ => True := by
  have traps := (perform_trapsUnaltered cfg action).traps surroundings
    world.1 hart
  rw [show (world.1, false) = world from Prod.ext rfl unaltered.symm] at traps
  have known := traps.and_all (perform_keepsRegs cfg action hart)
  cases commits : action.commits with
  | true =>
      refine known.mono fun last outcome holds => ?_
      obtain ⟨noted, kept, -⟩ := holds
      cases outcome with
      | done answer after => exact nofun
      | trap cause after => exact ⟨kept cause after rfl, noted cause after rfl⟩
      | abort reason => trivial
  | false =>
      have alters : action.altersMemory = false := by
        cases action <;> first | rfl | cases commits
      have asking := perform_asking cfg alters
      refine (known.and (under_of_asking surroundings (perform cfg action)
        world hart)).mono
        fun last outcome holds => ?_
      obtain ⟨⟨noted, kept, keeps⟩, same⟩ := holds
      cases outcome with
      | done answer after =>
          exact fun _ => ⟨keeps commits answer after rfl, same.trans unaltered⟩
      | trap cause after => exact ⟨kept cause after rfl, noted cause after rfl⟩
      | abort reason => trivial

/-- An action that does not trap. -/
theorem perform_trapless {action : Action} (trapless : action.mayTrap = false)
    (hart : Hart) (world : G × Bool) :
    (perform cfg action hart).Under (surroundings.noting altered).monitor world
      fun _ outcome => ∀ cause after, outcome ≠ .trap cause after :=
  ((perform_untrapped cfg trapless).untrapped hart).under _ world

/-- Most instructions trap before they commit. -/
theorem execute_trapsBeforeCommitting (accepted : hasCase op = true)
    (plain : isCsr op = false) (other : op ≠ .scW) (world : G) (hart : Hart) :
    (Machine.answering (perform cfg) (execute cfg instr op) hart).Under
      (surroundings.noting altered).monitor (world, false)
        (TrapsWith fun _ regs => regs = hart.regs) := by
  refine Machine.answering_under (perform cfg)
    (fun progress middle last => progress.committed = false →
      middle.regs = hart.regs ∧ last.2 = false) ?_
    (execute_disciplined cfg instr accepted) (fun _ => ⟨rfl, rfl⟩) ?_
  · intro progress middle last action intact permitted
    cases committed : progress.committed with
    | false =>
        obtain ⟨kept, unaltered⟩ := intact committed
        refine (perform_intact cfg surroundings unaltered).mono
          fun later outcome holds => ?_
        cases outcome with
        | done answer after =>
            refine ⟨trivial, fun idle => ?_⟩
            obtain ⟨same, noted⟩ := holds (Progress.of_after idle).2
            exact ⟨same.trans kept, noted⟩
        | trap cause after =>
            rintro _ _ ⟨⟩
            exact ⟨holds.1.trans kept, holds.2⟩
        | abort reason => rintro _ _ ⟨⟩
    | true =>
        have trapless : action.mayTrap = false := by
          cases traps : action.mayTrap with
          | false => rfl
          | true =>
              have clean :=
                Progress.committed_of_mayTrap plain other permitted traps
              rw [committed] at clean
              cases clean
        refine (perform_trapless cfg surroundings trapless middle last).mono
          fun later outcome ends => ?_
        cases outcome with
        | done answer after =>
            refine ⟨trivial, fun idle => ?_⟩
            have clean := (Progress.of_after idle).1
            rw [committed] at clean
            cases clean
        | trap cause after => exact absurd rfl (ends cause after)
        | abort reason => rintro _ _ ⟨⟩
  · rintro progress middle last result - - _ _ ⟨⟩

/-- A CSR instruction does not alter memory. -/
theorem altersMemory_of_isCsr {action : Action} (csr : isCsr op = true)
    (may : mayPerform op instr action) : action.altersMemory = false := by
  cases action with
  | storeData | atomicStoreWord | atomicStoreConditionalWord
  | executeSyscall =>
      cases op with
      | csrrw | csrrs | csrrc | csrrwi | csrrsi | csrrci =>
          simp [mayPerform, isStore, isFloat, isAmo] at may
      | _ => cases csr
  | _ => rfl

/-- A CSR instruction that traps has been refused before it changed
anything. -/
theorem execute_trapsRefused (csr : isCsr op = true) (world : G)
    (hart : Hart) :
    (Machine.answering (perform cfg) (execute cfg instr op) hart).Under
      (surroundings.noting altered).monitor (world, false)
        (TrapsWith fun _ regs => regs = hart.regs) := by
  have accepted : hasCase op = true := by
    cases op <;> first | rfl | cases csr
  have asking : Machine.Asking Unaltering
      (Machine.answering (perform cfg) (execute cfg instr op)) := by
    refine Machine.Asking.answering_of_asks (perform cfg) (fun action may => ?_)
      (execute_withinFootprint cfg instr accepted)
    exact perform_asking cfg (altersMemory_of_isCsr csr may)
  refine ((under_of_asking surroundings _ (world, false) hart).and_all
    (execute_endsAccess cfg hart instr csr)).mono fun last outcome holds => ?_
  obtain ⟨same, ends⟩ := holds
  rintro cause after rfl
  unfold EndsAccess at ends
  split at ends
  · obtain ⟨mtval, refused, ended, regs, -⟩ := ends
    cases ended
    exact ⟨regs, same⟩
  · exact absurd rfl (ends cause after)

end Bodies

/-! ## The conditional store -/

/-- The conditional store passes the checks before its store. -/
@[mk_iff]
structure PassesChecks (hart : Hart) : Prop where
  atomics : Csr.Misa.has (hart.csrs .misa) Csr.Misa.a = true
  aligned : (hart.regs (Instruction.rs1 hart.instr)).toNat % 4 = 0

/-- The store of a decoded `SC.W` is reached and traps.  The destination holds
the failure code by then, and in the timing build the pipeline has moved. -/
def StoreTraps {G : Type} (cfg : Config) (surroundings : Surroundings Reply G)
    (world : G) (decoded : Hart) (cause : SimulationTrap) : Prop :=
  PassesChecks decoded ∧ ∃ pipeline later after,
    (perform cfg
      (.atomicStoreConditionalWord
        ((decoded.regs (Instruction.rs1 decoded.instr)).setWidth 64)
        (decoded.regs (Instruction.rs2 decoded.instr)))
      { decoded.setReg (Instruction.rd decoded.instr) 1 with
        pipeline := pipeline }).ReachesIn surroundings world later
          (.trap cause after)

/-- How far `SC.W` has got. -/
inductive Conditional : Type
  | fresh
  /-- the destination holds the failure code -/
  | failing
  | stored
  deriving DecidableEq

namespace Conditional

def permits (decoded : Hart) : Conditional → Action → Prop
  | .fresh, .setReg regIdx value =>
      regIdx = Instruction.rd decoded.instr ∧ value = 1 ∧ PassesChecks decoded
  | .fresh, .csr _ | .fresh, .reg _ | .fresh, .pipeline _
  | .fresh, .raiseTrap _ _ => True
  | .fresh, _ => False
  | .failing, .atomicStoreConditionalWord addr value =>
      addr = (decoded.regs (Instruction.rs1 decoded.instr)).setWidth 64 ∧
        value = decoded.regs (Instruction.rs2 decoded.instr)
  | .failing, _ => False
  | .stored, action => action.mayTrap = false

/-- What is read before the destination is written. -/
def allows (decoded : Hart) :
    Conditional → (action : Action) → action.Answer → Prop
  | .fresh, .csr register, value => value = decoded.csrs register
  | .fresh, .reg regIdx, value => value = decoded.regs regIdx
  | _, _, _ => True

def after (conditional : Conditional) : Action → Conditional
  | .setReg _ _ => if conditional = .fresh then .failing else conditional
  | .atomicStoreConditionalWord _ _ => .stored
  | _ => conditional

theorem after_stored (action : Action) : after .stored action = .stored := by
  cases action <;> rfl

end Conditional

def conditionalRules (decoded : Hart) : Monitor Action.Answer Conditional where
  requires := Conditional.permits decoded
  allows := Conditional.allows decoded
  next conditional action _ := conditional.after action

section Conditional

open Body

variable (cfg : Config) {decoded : Hart} {conditional : Conditional} {α : Type}

@[simp]
theorem under_conditional_act (action : Action)
    (receive : action.Answer → α) (property : Conditional → α → Prop) :
    (act action receive).Under (conditionalRules decoded) conditional property ↔
      conditional.permits decoded action ∧
        ∀ reply, conditional.allows decoded action reply →
          property (conditional.after action) (receive reply) := by
  simp [act, Program.ask, Program.under_call, conditionalRules]

@[simp]
theorem under_conditional_raiseTrap (reason : ExceptionCode)
    (mtval : BitVec 64) (property : Conditional → α → Prop) :
    (raiseTrap reason mtval).Under (conditionalRules decoded) conditional
        property ↔
      conditional.permits decoded (.raiseTrap reason mtval) := by
  rw [raiseTrap, Program.under_call]
  exact and_iff_left fun never => by cases never

@[simp]
theorem under_conditional_ite (condition : Prop) [Decidable condition]
    (first second : Body α) (property : Conditional → α → Prop) :
    (if condition then first else second).Under (conditionalRules decoded)
        conditional property ↔
      (condition →
        first.Under (conditionalRules decoded) conditional property) ∧
      (¬ condition →
        second.Under (conditionalRules decoded) conditional property) := by
  by_cases holds : condition <;> simp [holds]

variable (decoded)

theorem scW_conditional :
    (Exec.scW cfg decoded.instr).Under (conditionalRules decoded) .fresh
      fun _ _ => True := by
  simp +contextual [Exec.scW, requireIsa, raiseIllegal, csr,
    trapCheckAddrAlignment, Exec.atomicStoreConditionalWord, Body.read, write,
    accessRegister, reg, setReg, Program.under_bind, Conditional.permits,
    Conditional.allows, Conditional.after, Action.mayTrap, passesChecks_iff]
/-- Where `SC.W` stands, seen from where it started. -/
def ConditionalStanding {G : Type} (decoded : Hart) (start : G) :
    Conditional → Hart → G × Bool → Prop
  | .fresh, hart, last =>
      (∃ pipeline, hart = { decoded with pipeline := pipeline }) ∧
        last = (start, false)
  | .failing, hart, last =>
      (∃ pipeline, hart =
        { decoded.setReg (Instruction.rd decoded.instr) 1 with
          pipeline := pipeline }) ∧
        last = (start, false) ∧ PassesChecks decoded
  | .stored, _, _ => True

/-- What a trap of `SC.W` leaves of the registers. -/
def FailingConditional {G : Type} (cfg : Config)
    (surroundings : Surroundings Reply G) (world : G) (decoded : Hart)
    (cause : SimulationTrap) (regs : BitVec 5 → BitVec 32) : Prop :=
  regs = decoded.regs ∨
    StoreTraps cfg surroundings world decoded cause ∧
      regs = (decoded.setReg (Instruction.rd decoded.instr) 1).regs

/-- A read, or a move of the pipeline, before the destination is written. -/
theorem perform_fresh {G : Type} (surroundings : Surroundings Reply G)
    {hart : Hart} {start : G} {action : Action}
    (standing : ∃ pipeline, hart = { decoded with pipeline := pipeline })
    (permitted : Conditional.fresh.permits decoded action) :
    (perform cfg action hart).Under (surroundings.noting altered).monitor
      (start, false) fun last outcome =>
        match outcome with
        | .done answer after => Conditional.fresh.allows decoded action answer ∧
            ConditionalStanding decoded start (Conditional.fresh.after action)
              after last
        | .trap _ after => after.regs = decoded.regs ∧ last.2 = false
        | .abort _ => True := by
  obtain ⟨pipeline, rfl⟩ := standing
  cases action with
  | setReg regIdx value =>
      obtain ⟨rfl, rfl, passes⟩ := permitted
      exact ⟨trivial, ⟨pipeline, rfl⟩, rfl, passes⟩
  | csr register => exact ⟨rfl, ⟨pipeline, rfl⟩, rfl⟩
  | reg regIdx => exact ⟨rfl, ⟨pipeline, rfl⟩, rfl⟩
  | pipeline event =>
      rw [perform, advancePipeline, Machine.under_bind, Machine.reads_apply,
        Program.under_ret]
      dsimp only
      cases moved : event.apply pipeline with
      | some later => exact ⟨trivial, ⟨later, rfl⟩, rfl⟩
      | none => trivial
  | raiseTrap reason mtval => exact ⟨rfl, rfl⟩
  | _ => cases permitted

/-- One action of `SC.W`. -/
theorem perform_conditional {G : Type} (surroundings : Surroundings Reply G)
    {hart : Hart} {start : G} {last : G × Bool} {action : Action}
    (standing : ConditionalStanding decoded start conditional hart last)
    (permitted : conditional.permits decoded action) :
    (perform cfg action hart).Under (surroundings.noting altered).monitor last
      fun later outcome =>
        match outcome with
        | .done answer after => conditional.allows decoded action answer ∧
            ConditionalStanding decoded start (conditional.after action) after
              later
        | .trap cause after =>
            TrapsWith (FailingConditional cfg surroundings start decoded) later
              (.trap cause after)
        | .abort reason =>
            TrapsWith (FailingConditional cfg surroundings start decoded) later
              (.abort reason) := by
  cases conditional with
  | fresh =>
      obtain ⟨same, rfl⟩ := standing
      refine (perform_fresh cfg decoded surroundings same permitted).mono
        fun later outcome holds => ?_
      cases outcome with
      | done answer after => exact holds
      | trap cause after =>
          rintro _ _ ⟨⟩
          exact ⟨.inl holds.1, holds.2⟩
      | abort reason => rintro _ _ ⟨⟩
  | failing =>
      cases action with
      | atomicStoreConditionalWord addr value =>
          obtain ⟨rfl, rfl⟩ := permitted
          obtain ⟨⟨pipeline, rfl⟩, rfl, passes⟩ := standing
          refine ((perform_intact cfg surroundings rfl).and
            (Program.reachesIn_of_noting start false _)).mono
              fun later outcome holds => ?_
          obtain ⟨intact, reached⟩ := holds
          cases outcome with
          | done answer after => exact ⟨trivial, trivial⟩
          | trap cause after =>
              rintro _ _ ⟨⟩
              exact ⟨.inr ⟨⟨passes, pipeline, later.1, after, reached⟩,
                intact.1⟩, intact.2⟩
          | abort reason => rintro _ _ ⟨⟩
      | _ => cases permitted
  | stored =>
      refine (perform_trapless cfg surroundings permitted hart last).mono
        fun later outcome ends => ?_
      cases outcome with
      | done answer after =>
          rw [Conditional.after_stored]
          exact ⟨trivial, trivial⟩
      | trap cause after => exact absurd rfl (ends cause after)
      | abort reason => rintro _ _ ⟨⟩

/-- The failure code is left by the trap of the store and by no other. -/
theorem execute_trapsFailing {G : Type} (surroundings : Surroundings Reply G)
    (world : G) :
    (Machine.answering (perform cfg) (execute cfg decoded.instr .scW)
      decoded).Under (surroundings.noting altered).monitor (world, false)
        (TrapsWith (FailingConditional cfg surroundings world decoded)) := by
  refine Machine.answering_under (perform cfg)
    (fun conditional hart last =>
      ConditionalStanding decoded world conditional hart last) ?_
    (scW_conditional cfg decoded) ⟨⟨decoded.pipeline, rfl⟩, rfl⟩ ?_
  · intro conditional middle last action standing permitted
    refine (perform_conditional cfg decoded surroundings standing
      permitted).mono fun later outcome holds => ?_
    cases outcome <;> exact holds
  · rintro conditional middle last result - - _ _ ⟨⟩

end Conditional

/-! ## The step -/

/-- The step has decoded a conditional store, and it is the store that
traps. -/
structure IssuesTrappingStore {G : Type} (cfg : Config)
    (surroundings : Surroundings Reply G) (world : G) (before decoded : Hart)
    (cause : SimulationTrap) : Prop where
  begins : before.begins
  op : decoded.op = .scW
  traps : ∃ issued, (issue cfg before.starting).ReachesIn surroundings world
    issued (.done () decoded) ∧
      StoreTraps cfg surroundings issued decoded cause

/-- What a trap may leave of the registers: all of them, or all but the
destination of a conditional store if that store traps. -/
def Restored {G : Type} (cfg : Config) (surroundings : Surroundings Reply G)
    (world : G) (before : Hart) (cause : SimulationTrap)
    (regs : BitVec 5 → BitVec 32) : Prop :=
  regs = before.regs ∨ ∃ decoded,
    IssuesTrappingStore cfg surroundings world before decoded cause ∧
      regs = (before.setReg (Instruction.rd decoded.instr) 1).regs

section Step

variable (cfg : Config) {G : Type} (surroundings : Surroundings Reply G)
  (world : G) (before : Hart)

/-- Before the switch nothing is written. -/
theorem issue_intact :
    (issue cfg before.starting).Under (surroundings.noting altered).monitor
      (world, false) fun last outcome =>
        last.2 = false ∧
          (∀ after, outcome.state? = some after → after.regs = before.regs) ∧
          (issue cfg before.starting).ReachesIn surroundings world last.1
            outcome := by
  have framed : Machine.Framed (Guard.any.frame true) (issue cfg) :=
    inferInstance
  have unaltered := under_of_asking surroundings (issue cfg) (world, false)
    before.starting
  refine ((unaltered.and_all (framed.framed before.starting trivial)).and
    (Program.reachesIn_of_noting world false _)).mono
      fun last outcome holds => ?_
  obtain ⟨⟨noted, within⟩, reached⟩ := holds
  exact ⟨noted, fun after ends => (within.1 after ends).2 rfl, reached⟩

/-- Whatever the instruction is. -/
theorem execute_intact (decoded : Hart) (world : G) :
    (Machine.answering (perform cfg) (execute cfg decoded.instr decoded.op)
      decoded).Under (surroundings.noting altered).monitor (world, false)
        (TrapsWith fun cause regs => regs = decoded.regs ∨ decoded.op = .scW ∧
          StoreTraps cfg surroundings world decoded cause ∧
            regs = (decoded.setReg (Instruction.rd decoded.instr) 1).regs) := by
  cases accepted : hasCase decoded.op with
  | false =>
      rw [execute_of_not_hasCase cfg decoded.instr decoded accepted]
      rintro _ _ ⟨⟩
  | true =>
      cases csr : isCsr decoded.op with
      | true =>
          exact (execute_trapsRefused cfg surroundings csr world decoded).mono
            fun last outcome traps cause after trapped =>
              (traps cause after trapped).imp_left .inl
      | false =>
          by_cases conditional : decoded.op = .scW
          · rw [conditional]
            refine (execute_trapsFailing cfg decoded surroundings
              world).mono fun last outcome traps cause after trapped => ?_
            exact (traps cause after trapped).imp_left
              (Or.imp_right fun failing => ⟨rfl, failing⟩)
          · exact (execute_trapsBeforeCommitting cfg surroundings accepted csr
              conditional world decoded).mono
                fun last outcome traps cause after trapped =>
                  (traps cause after trapped).imp_left .inl

theorem execStep_intact (begins : before.begins) :
    (execStep cfg before.starting).Under
      (surroundings.noting altered).monitor (world, false)
        fun last outcome =>
          TrapsWith (Restored cfg surroundings world before) last outcome ∧
            outcome.Leaves fun after => after.lastPc = before.pc := by
  have located : before.starting.lastPc = before.pc := rfl
  refine Program.Under.and_all ?_
    ((lastPc_persistent before.pc).execStep cfg located)
  refine execStep_under cfg before.starting <|
    (issue_intact cfg surroundings world before).mono
      fun last outcome intact => ?_
  obtain ⟨unaltered, kept, reached⟩ := intact
  cases outcome with
  | done value decoded =>
      have same : decoded.regs = before.regs := kept decoded rfl
      rw [show last = (last.1, false) from Prod.ext rfl unaltered]
      refine (execute_intact cfg surroundings decoded last.1).mono
        fun later outcome traps cause after trapped => ?_
      refine (traps cause after trapped).imp_left fun ends => ?_
      rcases ends with restored | ⟨conditional, traps, failing⟩
      · exact .inl (restored.trans same)
      · refine .inr ⟨decoded, ⟨begins, conditional, last.1, reached, traps⟩,
          failing.trans ?_⟩
        unfold Hart.setReg
        rw [same]
  | trap cause middle =>
      rintro _ _ ⟨⟩
      exact ⟨.inl (kept middle rfl), unaltered⟩
  | abort reason => rintro _ _ ⟨⟩

instance (trap : SimulationTrap) :
    Machine.Asking Unaltering (takeTrap trap) := by
  have prepares : Machine.Asking Unaltering (prepareTrap trap) := by
    refine ⟨fun hart => ?_⟩
    rw [prepareTrap_apply]
    trivial
  have switches (mode : PrivilegeLevel) :
      Machine.Asking Unaltering (switchToTrapHandler mode) := by
    refine ⟨fun hart => ?_⟩
    rw [switchToTrapHandler_apply]
    exact ⟨trivial, fun _ _ => trivial⟩
  unfold takeTrap
  infer_instance

instance : Machine.Asking Unaltering (finishStep cfg) := by
  have advances (newCycles : Nat) :
      Machine.Asking Unaltering (advanceTime cfg newCycles) := by
    unfold advanceTime
    infer_instance
  have asks (advance : BitVec 64) : Machine.Asking Unaltering
      (call (.needSync advance) : HartM Bool) :=
    Machine.Asking.request trivial _
  have syncs : Machine.Asking Unaltering
      (call .sync : HartM (List InterruptEvent)) :=
    Machine.Asking.request trivial _
  have synchronises (advance : BitVec 64) :
      Machine.Asking Unaltering (synchronise advance) := by
    unfold synchronise
    infer_instance
  have updates (executedOp : Mapping) :
      Machine.Asking Unaltering (performanceAndSyncUpdate cfg executedOp) := by
    unfold performanceAndSyncUpdate
    infer_instance
  unfold finishStep
  infer_instance

/-- What the entry to the handler of a trap leaves. -/
structure EntersPrecisely (cause : SimulationTrap) (target : PrivilegeLevel)
    (altered : Bool) (entered : Hart) : Prop where
  restored : Restored cfg surroundings world before cause entered.regs
  unaltered : altered = false
  prv : entered.prv = target
  epc : entered.csrs (handlerOf target).epc = before.pc

variable {cfg surroundings world before}

theorem takeStep_intact (begins : before.begins) :
    (takeStep cfg before.starting).Under
      (surroundings.noting altered).monitor (world, false)
        fun last outcome => ∀ trap target entered,
          outcome = .done (.trapped trap target) entered →
            EntersPrecisely cfg surroundings world before trap target last.2
              entered := by
  unfold takeStep
  rw [Machine.under_catchTrap, Machine.under_bind]
  refine (execStep_intact cfg surroundings world before begins).mono
    fun last outcome intact => ?_
  obtain ⟨traps, located⟩ := intact
  cases outcome with
  | done value middle =>
      refine ((takeInterrupt_all middle).under _ last).mono
        fun later choice chosen => ?_
      cases chosen <;> rintro _ _ _ ⟨⟩
  | trap cause middle =>
      obtain ⟨restored, unaltered⟩ := traps cause middle rfl
      refine ((under_of_asking surroundings (takeTrap cause) last middle).and_all
        (takeTrap_all cause middle)).mono fun later handling handled => ?_
      obtain ⟨same, handled⟩ := handled
      cases handled with
      | taken fits enters =>
          rintro _ _ _ ⟨⟩
          refine ⟨?_, same.trans unaltered, prv_of_enter enters, ?_⟩
          · rw [regs_of_enter enters]
            exact restored
          · rw [epc_of_enter enters]
            exact located middle rfl
      | badLexicalCast wide => rintro _ _ _ ⟨⟩
      | delegation user elsewhere => rintro _ _ _ ⟨⟩
  | abort reason => rintro _ _ _ ⟨⟩

end Step

/-! ## The end of the step -/

def keepingRegs : Frame Hart Fatal where
  pre _ := True
  related before after := after.regs = before.regs
  refl _ := rfl
  trans left right := right.trans left
  stable _ _ := trivial
  aborts _ := True

instance : Bookkeeps keepingRegs where
  interrupt event hart _ := hart.interrupt_regs event
  lrScCounter _ _ _ := rfl
  pipeline _ _ _ := rfl
  lastCycles _ _ _ := rfl
  instruction hart _ := by
    change (countInstruction hart).regs = hart.regs
    unfold countInstruction
    split <;> rfl
  cycles newCycles hart _ := by
    change (countCycles newCycles hart).regs = hart.regs
    unfold countCycles
    split <;> rfl
  negative := trivial

/-- The zero register is reset and the others are kept. -/
theorem finishStep_regs (cfg : Config) (hart : Hart) :
    (finishStep cfg hart).All fun outcome =>
      ∀ after, outcome = .done () after → after.regs = (hart.setReg 0 0).regs := by
  have terminates : Machine.Framed keepingRegs
      (Machine.modifies fun hart =>
        if hart.shallExit then { hart with status := .terminated }
        else hart : HartM Unit) := by
    refine Machine.Framed.modifies fun hart _ => ?_
    split <;> rfl
  have updates (executedOp : Mapping) :
      Machine.Framed keepingRegs (performanceAndSyncUpdate cfg executedOp) :=
    performanceAndSyncUpdate_framed cfg executedOp
  have rest : Machine.Framed keepingRegs (do
      Machine.modifies fun hart : Hart =>
        if hart.shallExit then { hart with status := .terminated } else hart
      let op ← Machine.reads Hart.op
      performanceAndSyncUpdate cfg op) :=
    inferInstance
  unfold finishStep
  rw [Machine.all_bind, Machine.modifies_apply, Program.all_ret]
  refine (rest.framed (hart.setReg 0 0) trivial).mono
    fun outcome within after ended => ?_
  subst ended
  exact (Frame.post_done _ _ _ _).1 within

section Precise

variable {G : Type} (cfg : Config) (surroundings : Surroundings Reply G)
  (world : G) (before : Hart)

/-- When the step traps, the registers are restored, no data in memory has
been altered, and the mode of the handler finds the address of the
instruction in its `xepc`. -/
def TrapsPrecisely
    (restored : SimulationTrap → (BitVec 5 → BitVec 32) → Prop) : Prop :=
  (runStep cfg before).Under (surroundings.noting altered).monitor
    (world, false) fun last outcome => ∀ trap target after,
      outcome = .done (.trapped trap target) after →
        restored trap after.regs ∧ last.2 = false ∧ after.prv = target ∧
          after.csrs (handlerOf target).epc = before.pc

/-- The registers with the failure code of a conditional store in its
destination. -/
def Hart.failingConditional (hart : Hart) (rd regIdx : BitVec 5) :
    BitVec 32 :=
  if regIdx = 0 then 0 else if regIdx = rd then 1 else hart.regs regIdx

/-- The step executes a conditional store, whose store traps, and these are the
registers with its failure code. -/
def FailsConditionally (cause : SimulationTrap) (regs : BitVec 5 → BitVec 32) :
    Prop :=
  ∃ decoded, IssuesTrappingStore cfg surroundings world before decoded cause ∧
    regs = before.failingConditional (Instruction.rd decoded.instr)

variable {cfg surroundings world before}

/-- The end of the step resets the zero register only. -/
theorem restored_of_finished {cause : SimulationTrap}
    {regs after : BitVec 5 → BitVec 32} (zero : before.regs 0 = 0)
    (restored : Restored cfg surroundings world before cause regs)
    (finished : after = fun regIdx => if regIdx = 0 then 0 else regs regIdx) :
    after = before.regs ∨
      FailsConditionally cfg surroundings world before cause after := by
  rcases restored with same | ⟨decoded, issued, failing⟩
  · left
    rw [finished, same]
    funext regIdx
    split
    next isZero => rw [isZero, zero]
    next => rfl
  · right
    refine ⟨decoded, issued, ?_⟩
    rw [finished, failing]
    rfl

/-- Make a reservation on a page that translation lets nobody write, switch
the translation of the data accesses on, and store conditionally. -/
def storeToReadOnlyPage : List (BitVec 32) :=
  [0x10000393, 0x800000b7, 0x18009073, 0x00020137, 0x1003a32f, 0x30012073,
    0x1863a2af]

/-- The step traps and changes the register of the failure code. -/
def failsWithTrap (hart : Hart) :
    Outcome Hart SimulationTrap Fatal StepEvent → Bool
  | .done (.trapped _ _) after => after.regs 5 != hart.regs 5
  | _ => false

end Precise

end Rv32

end RiscvVp
