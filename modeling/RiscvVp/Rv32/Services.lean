import RiscvVp.Rv32.Action
import RiscvVp.Rv32.MemoryFrame

/-!
# What the services may change

Besides the memory interface a body uses the CSR reads, the bus lock, the
pipeline model and the wait for an interrupt.  A frame that also allows what
these do `Supplies` the instructions; every action that is a service is framed
by it.  The actions that remain are assignments, the two that are about
privilege, and the end of the simulator.
-/

namespace RiscvVp

namespace Rv32

open Csr Interaction

/-- The frame allows what the services do apart from the pipeline model. -/
class SuppliesClock (frame : Frame Hart Fatal) : Prop extends Serves frame where
  time : ∀ value (hart : Hart), frame.pre hart →
    frame.related hart
      { hart with csrs := hart.csrs.set64 .time .timeh value }
  cycle : ∀ value (hart : Hart), frame.pre hart →
    frame.related hart
      { hart with csrs := hart.csrs.set64 .cycle .cycleh value }
  syscall : frame.aborts .syscall

/-- The frame allows what the services do. -/
class Supplies (frame : Frame Hart Fatal) : Prop extends SuppliesClock frame where
  pipeline : ∀ pipeline (hart : Hart), frame.pre hart →
    frame.related hart { hart with pipeline := pipeline }
  pending : frame.aborts .registerAlreadyPending

section Services

variable {α : Type} {frame : Frame Hart Fatal}

instance : Machine.Framed frame (raiseIllegalInstruction : HartM α) := by
  unfold raiseIllegalInstruction
  infer_instance

instance (addr : BitVec 32) (isWrite : Bool) :
    Machine.Framed frame (isInvalidCsrAccess addr isWrite) := by
  unfold isInvalidCsrAccess
  infer_instance

instance (addr : BitVec 32) : Machine.Framed frame (defaultRead32 addr) := by
  unfold defaultRead32
  split <;> infer_instance

instance (addr : BitVec 32) :
    Machine.Framed frame (validateCsrCounterReadAccessRights addr) := by
  unfold validateCsrCounterReadAccessRights
  infer_instance

instance (cfg : Config) (addr : BitVec 64) [Serves frame] :
    Machine.Framed frame (amoLoadWord cfg addr) := by
  unfold amoLoadWord
  infer_instance

instance [Serves frame] : Machine.Framed frame waitWfi := by
  unfold waitWfi
  infer_instance

/-- Giving up a reservation also ends its window. -/
theorem releaseLrScReservation_framed [Serves frame]
    (released : ∀ hart, frame.pre hart →
      frame.related hart { hart with lrScCounter := 0 }) :
    Machine.Framed frame releaseLrScReservation := by
  have : Machine.Framed frame
      (Machine.modifies fun hart => { hart with lrScCounter := 0 } :
        HartM Unit) :=
    Machine.Framed.modifies released
  unfold releaseLrScReservation
  infer_instance

section Clock

variable [supplies : SuppliesClock frame]

instance (cfg : Config) (addr : BitVec 32) :
    Machine.Framed frame (getCsrValue cfg addr) := by
  have timed (value : BitVec 64) : Machine.Framed frame
      (Machine.modifies fun hart =>
        { hart with csrs := hart.csrs.set64 .time .timeh value } :
        HartM Unit) :=
    Machine.Framed.modifies (supplies.time value)
  have counted : Machine.Framed frame
      (Machine.modifies fun hart =>
        { hart with
          csrs := hart.csrs.set64 .cycle .cycleh (currentCycles cfg hart) } :
        HartM Unit) :=
    Machine.Framed.modifies fun hart => supplies.cycle _ hart
  unfold getCsrValue
  refine @Machine.Framed.bind _ _ _ _ _ _ _ _ _ _ _ fun _ => ?_
  split <;> infer_instance

/-- A system call also writes a register and may ask to exit. -/
theorem executeSyscall_framed
    (writes : ∀ value hart, frame.pre hart →
      frame.related hart (hart.setReg 10 value))
    (exits : ∀ hart, frame.pre hart →
      frame.related hart { hart with shallExit := true }) :
    Machine.Framed frame executeSyscall := by
  have written (value : BitVec 32) : Machine.Framed frame
      (Machine.modifies fun hart => hart.setReg 10 value : HartM Unit) :=
    Machine.Framed.modifies (writes value)
  have exiting : Machine.Framed frame
      (Machine.modifies fun hart => { hart with shallExit := true } :
        HartM Unit) :=
    Machine.Framed.modifies exits
  unfold executeSyscall
  refine @Machine.Framed.bind _ _ _ _ _ _ _ _ _ _ _ fun hart => ?_
  refine @Machine.Framed.bind _ _ _ _ _ _ _ _ _ _ _ fun reply => ?_
  split
  · infer_instance
  · exact Machine.Framed.abort supplies.syscall

end Clock

instance [supplies : Supplies frame] (event : PipelineEvent) :
    Machine.Framed frame (advancePipeline event) := by
  unfold advancePipeline
  refine @Machine.Framed.bind _ _ _ _ _ _ _ _ _ _ _ fun pipeline => ?_
  split
  · exact Machine.Framed.modifies (supplies.pipeline _)
  · exact Machine.Framed.abort supplies.pending

end Services

namespace Action

/-- The actions that assign nothing but what every service may. -/
def isService : Action → Bool
  | .setReg _ _ | .setFpReg _ _ | .setPc _ | .setLrScCounter _
  | .hitBreakpoint | .raiseFlags _ | .setRoundingMode _ | .fpSetDirty
  | .fpUpdateExceptionFlags | .releaseLrScReservation | .executeSyscall
  | .fatal _ | .setCsrValue _ _ | .returnFromTrapHandler _ => false
  | _ => true

end Action

/-- A service other than the pipeline model stays within every frame that allows
the rest. -/
theorem perform_clockService (cfg : Config) {frame : Frame Hart Fatal}
    [SuppliesClock frame] {action : Action} (service : action.isService = true)
    (other : ∀ event, action ≠ .pipeline event) :
    Machine.Framed frame (perform cfg action) := by
  cases action with
  | setReg | setFpReg | setPc | setLrScCounter | hitBreakpoint | raiseFlags
  | setRoundingMode | fpSetDirty | fpUpdateExceptionFlags
  | releaseLrScReservation | executeSyscall | fatal | setCsrValue
  | returnFromTrapHandler => cases service
  | pipeline event => exact absurd rfl (other event)
  | _ =>
      unfold perform
      infer_instance

/-- A service stays within every frame that supplies the instructions. -/
theorem perform_service (cfg : Config) {frame : Frame Hart Fatal}
    [Supplies frame] {action : Action} (service : action.isService = true) :
    Machine.Framed frame (perform cfg action) := by
  by_cases events : ∃ event, action = .pipeline event
  · obtain ⟨event, rfl⟩ := events
    exact inferInstanceAs (Machine.Framed frame (advancePipeline event))
  · exact perform_clockService cfg service fun event same => events ⟨event, same⟩

end Rv32

end RiscvVp
