import RiscvVp.Rv32.BusLock
import RiscvVp.Rv32.Step

/-!
# The stalls of an instruction

Until the end of a step the pipeline model is only reached through its calls, and
its counter grows by what these stall.  The quantum keeper is not called, and the
count that was noted last stays as it is.
-/

namespace RiscvVp

namespace Rv32

open Csr Interaction

/-! ## Calls of the pipeline model -/

/-- The cycles that a call stalls for. -/
def PipelineEvent.stalls (pipeline : HiFive1PipelineTiming) : PipelineEvent → ℕ
  | .accessRegister regIdx =>
      ((pipeline.pendingRegisterLatencies.find? (·.regIdx == regIdx)).map
        Timing.RegisterLatency.latency).getD 0
  | .reserveStore _ _ => 0
  | .doLoad addrRange _ _ _ =>
      if pipeline.hasStoreReservation addrRange then 5 else 0
  | .doMult _ => if pipeline.mult.acquired then pipeline.mult.latency else 0
  | .doDiv _ => if pipeline.div.acquired then pipeline.div.latency else 0
  | .doCsr _ => 0

namespace HiFive1PipelineTiming

variable {pipeline later : HiFive1PipelineTiming}

/-- Calls have been made, and they have stalled for some cycles. -/
inductive Stalled (first : HiFive1PipelineTiming) : ℕ → HiFive1PipelineTiming → Prop
  | none : Stalled first 0 first
  | call {cycles : ℕ} {pipeline later : HiFive1PipelineTiming}
      (event : PipelineEvent) (stalled : Stalled first cycles pipeline)
      (applies : event.apply pipeline = some later) :
      Stalled first (cycles + event.stalls pipeline) later

theorem Stalled.trans {first last : HiFive1PipelineTiming} {cycles more : ℕ}
    (early : Stalled first cycles pipeline) (late : Stalled pipeline more last) :
    Stalled first (cycles + more) last := by
  induction late with
  | none => exact early
  | call event stalled applies inductionHypothesis =>
      rw [← Nat.add_assoc]
      exact .call event inductionHypothesis applies

end HiFive1PipelineTiming

open HiFive1PipelineTiming (Stalled)

/-! ## The frame -/

/-- Only the calls of the pipeline model have touched it. -/
structure OnlyStalled (before after : Hart) : Prop where
  lastCycles : after.lastCycles = before.lastCycles
  stalled : ∃ cycles, Stalled before.pipeline cycles after.pipeline

namespace OnlyStalled

variable {before after : Hart}

theorem of_kept (pipeline : after.pipeline = before.pipeline)
    (lastCycles : after.lastCycles = before.lastCycles) : OnlyStalled before after :=
  ⟨lastCycles, 0, pipeline ▸ .none⟩

theorem trans {last : Hart} (first : OnlyStalled before after)
    (second : OnlyStalled after last) : OnlyStalled before last := by
  obtain ⟨cycles, early⟩ := first.stalled
  obtain ⟨more, late⟩ := second.stalled
  exact ⟨second.lastCycles.trans first.lastCycles, cycles + more, early.trans late⟩

theorem interrupt (hart : Hart) (event : InterruptEvent) :
    OnlyStalled hart (hart.interrupt event) := by
  rw [Hart.interrupt_eq]
  exact of_kept rfl rfl

end OnlyStalled

def stalling : Frame Hart Fatal where
  pre _ := True
  related := OnlyStalled
  refl _ := .of_kept rfl rfl
  trans := OnlyStalled.trans
  stable _ _ := trivial
  aborts _ := True

instance : SuppliesClock stalling where
  tlb _ _ _ := .of_kept rfl rfl
  lrAddr _ _ _ := .of_kept rfl rfl
  interrupt event hart _ := .interrupt hart event
  listed _ _ := trivial
  mode _ _ _ _ := trivial
  time _ _ _ := .of_kept rfl rfl
  cycle _ _ _ := .of_kept rfl rfl
  syscall := trivial

/-- An assignment to other fields. -/
theorem stalling_modifies {update : Hart → Hart}
    (pipeline : ∀ hart, (update hart).pipeline = hart.pipeline)
    (lastCycles : ∀ hart, (update hart).lastCycles = hart.lastCycles) :
    Machine.Framed stalling (Machine.modifies update : HartM Unit) :=
  Machine.Framed.modifies fun hart _ => .of_kept (pipeline hart) (lastCycles hart)

instance (reason : Fatal) {α : Type} :
    Machine.Framed stalling (Machine.abort reason : HartM α) :=
  Machine.Framed.abort trivial

instance (condition : Bool) (reason : Fatal) :
    Machine.Framed stalling (Machine.assert condition reason : HartM Unit) :=
  Machine.Framed.assert trivial

/-- A call of the pipeline model is a call. -/
instance (event : PipelineEvent) : Machine.Framed stalling (advancePipeline event) where
  framed hart _ := by
    rw [advancePipeline, Machine.all_bind, Machine.reads_apply, Program.all_ret]
    dsimp only
    cases applies : event.apply hart.pipeline with
    | none => exact (Frame.post_abort _ _ _).2 trivial
    | some later =>
        refine (Frame.post_done _ _ _ _).2 ⟨rfl, event.stalls hart.pipeline, ?_⟩
        rw [← Nat.zero_add (event.stalls hart.pipeline)]
        exact .call event .none applies

instance (mode : PrivilegeLevel) :
    Machine.Framed stalling (returnFromTrapHandler mode) := by
  have machine : Machine.Framed stalling (Machine.modifies machineReturn : HartM Unit) :=
    stalling_modifies (fun _ => rfl) fun _ => rfl
  have supervisor : Machine.Framed stalling
      (Machine.modifies supervisorReturn : HartM Unit) :=
    stalling_modifies (fun _ => rfl) fun _ => rfl
  have user : Machine.Framed stalling (Machine.modifies userReturn : HartM Unit) :=
    stalling_modifies (fun _ => rfl) fun _ => rfl
  unfold returnFromTrapHandler
  infer_instance

instance (addr value : BitVec 32) :
    Machine.Framed stalling (setCsrValue addr value) where
  framed hart _ := by
    rcases setCsrValue_outcome addr value hart with
      ⟨after, equation, writes⟩ | ⟨trap, equation, _⟩
    · rw [equation, Program.all_ret, Frame.post_done]
      rcases writes.changes_one with rfl | ⟨register, word, rfl⟩
      · exact .of_kept rfl rfl
      · exact .of_kept rfl rfl
    · rw [equation, Program.all_ret, Frame.post_trap]
      exact .of_kept rfl rfl

instance : Machine.Framed stalling releaseLrScReservation :=
  releaseLrScReservation_framed fun _ _ => .of_kept rfl rfl

instance (cfg : Config) (action : Action) :
    Machine.Framed stalling (perform cfg action) := by
  cases action with
  | pipeline event =>
      exact inferInstanceAs (Machine.Framed stalling (advancePipeline event))
  | setCsrValue addr value =>
      exact inferInstanceAs (Machine.Framed stalling (setCsrValue addr value))
  | returnFromTrapHandler mode =>
      exact inferInstanceAs (Machine.Framed stalling (returnFromTrapHandler mode))
  | releaseLrScReservation =>
      exact inferInstanceAs (Machine.Framed stalling releaseLrScReservation)
  | executeSyscall =>
      exact executeSyscall_framed (fun _ _ _ => .of_kept rfl rfl)
        fun _ _ => .of_kept rfl rfl
  | fatal reason => exact Machine.Framed.abort trivial
  | setReg | setFpReg | setPc | setLrScCounter | hitBreakpoint | raiseFlags
  | setRoundingMode | fpSetDirty =>
      exact stalling_modifies (fun _ => rfl) fun _ => rfl
  | fpUpdateExceptionFlags =>
      refine stalling_modifies (fun hart => ?_) fun hart => ?_
      · rw [Hart.fpUpdateExceptionFlags]
        split <;> rfl
      · rw [Hart.fpUpdateExceptionFlags]
        split <;> rfl
  | _ => exact perform_clockService cfg rfl nofun

instance (cfg : Config) : Machine.Framed stalling (execStep cfg) := by
  have issued : Machine.Framed stalling (issue cfg) :=
    issue_framed cfg (fun _ _ _ _ _ => .of_kept rfl rfl) trivial
  unfold execStep executeDecoded
  infer_instance

/-! ## Traps and interrupts -/

instance (registers : TrapRegisters) (trap : SimulationTrap) :
    Machine.Framed stalling (recordTrap registers trap) := by
  have caused : Machine.Framed stalling (Machine.modifies fun hart =>
      setCause hart registers.cause 0 trap.reason.code : HartM Unit) :=
    stalling_modifies (fun _ => rfl) fun _ => rfl
  have valued (mtval : BitVec 32) : Machine.Framed stalling
      (Machine.modifies fun hart => hart.setCsr registers.tval mtval : HartM Unit) :=
    stalling_modifies (fun _ => rfl) fun _ => rfl
  unfold recordTrap
  cases lexicalCast trap.mtval <;> infer_instance

instance (trap : SimulationTrap) : Machine.Framed stalling (prepareTrap trap) := by
  have rewound : Machine.Framed stalling
      (Machine.modifies fun hart => { hart with pc := hart.lastPc } : HartM Unit) :=
    stalling_modifies (fun _ => rfl) fun _ => rfl
  unfold prepareTrap
  infer_instance

instance (e : PendingInterrupts) : Machine.Framed stalling (prepareInterrupt e) := by
  have caused (cause : Register) (code : ℕ) : Machine.Framed stalling
      (Machine.modifies fun hart => setCause hart cause 1 code : HartM Unit) :=
    stalling_modifies (fun _ => rfl) fun _ => rfl
  unfold prepareInterrupt
  cases highestPriority e.pending <;> infer_instance

instance (targetMode : PrivilegeLevel) :
    Machine.Framed stalling (switchToTrapHandler targetMode) := by
  have lowered : Machine.Framed stalling
      (Machine.modifies fun hart => { hart with prv := targetMode } : HartM Unit) :=
    stalling_modifies (fun _ => rfl) fun _ => rfl
  have machine (pp : PrivilegeLevel) : Machine.Framed stalling
      (Machine.modifies (enterMachine pp) : HartM Unit) :=
    stalling_modifies (fun _ => rfl) fun _ => rfl
  have supervisor (pp : PrivilegeLevel) : Machine.Framed stalling
      (Machine.modifies (enterSupervisor pp) : HartM Unit) :=
    stalling_modifies (fun _ => rfl) fun _ => rfl
  have user : Machine.Framed stalling (Machine.modifies enterUser : HartM Unit) :=
    stalling_modifies (fun _ => rfl) fun _ => rfl
  unfold switchToTrapHandler
  infer_instance

instance : Machine.Framed stalling takeInterrupt := by
  unfold takeInterrupt
  infer_instance

instance (trap : SimulationTrap) : Machine.Framed stalling (takeTrap trap) := by
  unfold takeTrap observe call
  infer_instance

instance (cfg : Config) : Machine.Framed stalling (takeStep cfg) := by
  unfold takeStep
  infer_instance

/-! ## No local time is added -/

/-- The calls that add no local time. -/
def Timeless : Call → Prop
  | .needSync _ => False
  | _ => True

instance : PermitsOrdinary Timeless where
  ordinary question ordinary := by
    cases question with
    | needSync => cases ordinary
    | _ => trivial

instance : Machine.Asking Timeless Memory.lock := by
  have locked (hartId : BitVec 32) : Machine.Asking Timeless
      (call (.lock hartId) : HartM (List InterruptEvent)) :=
    Machine.Asking.request trivial _
  unfold Memory.lock
  infer_instance

instance (cfg : Config) (addr : BitVec 64) :
    Machine.Asking Timeless (Memory.loadWord cfg addr) := by
  unfold Memory.loadWord
  infer_instance

instance (cfg : Config) (action : Action) :
    Machine.Asking Timeless (perform cfg action) := by
  cases takes : action.takesLock with
  | false => exact perform_ordinary cfg takes
  | true =>
      cases action with
      | amoLoadWord addr =>
          unfold perform amoLoadWord Memory.atomicLoadWord
          infer_instance
      | atomicLoadReservedWord addr =>
          unfold perform Memory.atomicLoadReservedWord
          infer_instance
      | _ => cases takes

instance (registers : TrapRegisters) (trap : SimulationTrap) :
    Machine.Asking Timeless (recordTrap registers trap) := by
  unfold recordTrap
  cases lexicalCast trap.mtval <;> infer_instance

instance (trap : SimulationTrap) : Machine.Asking Timeless (prepareTrap trap) := by
  unfold prepareTrap
  infer_instance

instance (e : PendingInterrupts) : Machine.Asking Timeless (prepareInterrupt e) := by
  unfold prepareInterrupt
  cases highestPriority e.pending <;> infer_instance

instance (targetMode : PrivilegeLevel) :
    Machine.Asking Timeless (switchToTrapHandler targetMode) := by
  unfold switchToTrapHandler
  infer_instance

instance : Machine.Asking Timeless takeInterrupt := by
  unfold takeInterrupt
  infer_instance

instance (trap : SimulationTrap) : Machine.Asking Timeless (takeTrap trap) := by
  unfold takeTrap
  infer_instance

instance (cfg : Config) : Machine.Asking Timeless (takeStep cfg) := by
  unfold takeStep execStep executeDecoded
  infer_instance

end Rv32

end RiscvVp
