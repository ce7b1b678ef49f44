import RiscvVp.Rv32.TimingRun

/-!
# Waiting for pending results

An instruction that uses a register whose result is pending waits for it,
unless its body reads or writes the register file directly: indirect jumps,
atomic operations, moves between the register files, floating-point loads and
stores, and system calls.  And a result can be pending on `x0`, which every
later use of `x0` then waits for.
-/

namespace RiscvVp

namespace Rv32

namespace Asserted

open Interaction

/-- By this point of the instruction the clock has reached the completion of
every result that was pending on a register that it has used, and it has not
waited for `x0`. -/
structure Heeds (first : PipelineTiming) (usage : Usage) : Prop where
  waits : ∀ entry ∈ first.pendingRegisterLatencies, entry.regIdx ≠ 0 →
    entry.regIdx ∈ usage.used →
      entry.latency ≤ usage.timing.numTotalCycles - first.numTotalCycles
  zero : usage.stalledByZero = false

/-- No result is pending on `x0`, nor on a register that the opcode uses
without waiting. -/
structure Covered (cfg : Config) (index : BitVec 5) (timing : PipelineTiming)
    (op : Mapping) (instr : Instruction) : Prop where
  zero : timing.find 0 = false
  direct : ∀ regIdx ∈ directRegisters cfg index instr op, regIdx ≠ 0 →
    timing.find regIdx = false

/-- In a sequence of covered instructions every instruction heeds the pending
results. -/
theorem execution_heeds {cfg : Config} (timed : cfg.pipelineTiming = true)
    {index : BitVec 5} {timing : PipelineTiming}
    (execution : Execution cfg index (Covered cfg index) timing)
    {op : Mapping} {instr : Instruction}
    (covered : Covered cfg index timing op instr) {usage : Usage}
    (visits : (execute cfg instr op).Visits (asserting index)
      { timing := timing } usage) :
    Heeds timing usage := by
  obtain ⟨_, represents⟩ := execution.represents timed
  obtain ⟨pace, keeps⟩ := visits_keeps timed op instr represents visits
  refine ⟨fun entry member nonzero used => ?_, (keeps.zero covered.zero).1⟩
  rcases keeps.used entry.regIdx used with waited | direct
  · exact keeps.waited entry member waited
  · have free := covered.direct entry.regIdx direct nonzero
    rw [PipelineTiming.find, List.any_eq_false] at free
    exact absurd (beq_iff_eq.2 rfl) (free entry member)

/-! ## An indirect jump through a loaded register -/

/-- `jalr x0, 0(x5)` -/
def jumping : Instruction := 0x00028067

/-- `addi x6, x5, 1` -/
def adding : Instruction := 0x00128313

/-- The addition waits for the loaded register. -/
theorem execution_heeds_adding :
    Heeds loaded
      { timing := { numTotalCycles := 2 }
        used := [6, 5] } := by
  have covered : Covered timedConfig 17 {} .lw loading :=
    ⟨rfl, fun _ member => absurd member List.not_mem_nil⟩
  have next : Covered timedConfig 17 loaded .addi adding :=
    ⟨rfl, fun _ member => absurd member List.not_mem_nil⟩
  exact execution_heeds rfl (execution_loaded covered) next <|
    .call () trivial <| .call (1 : BitVec 32) trivial <|
      .call () trivial <| .call () trivial <| .here _ _

/-- The jump does not: it is done with its body before the load is
complete. -/
theorem not_heeds_jumping :
    ¬ ∀ timing, Execution timedConfig 17 (fun _ _ _ => True) timing →
      ∀ op instr usage,
        (execute timedConfig instr op).Visits (asserting 17)
          { timing := timing } usage → Heeds timing usage := by
  intro heeds
  have visits : (execute timedConfig jumping .jalr).Visits (asserting 17)
      { timing := loaded } { timing := loaded, used := [0, 5] } :=
    .call (0 : BitVec 32) trivial <| .call (0 : BitVec 32) trivial <|
      .call () trivial <| .call (0 : BitVec 32) trivial <|
        .call (0 : BitVec 32) trivial <| .call () trivial <|
          .call () trivial <| .here _ _
  have waits := (heeds loaded (execution_loaded trivial) .jalr jumping _
    visits).waits ⟨5, 1⟩ (List.mem_singleton_self _) (by decide) (by decide)
  exact absurd waits (by decide)

end Asserted

end Rv32

end RiscvVp
