import RiscvVp.Core.Compressed
import RiscvVp.Core.Decode
import RiscvVp.Rv32.Exec.CsrInstr
import RiscvVp.Rv32.Exec.Floating
import RiscvVp.Rv32.Exec.Integer
import RiscvVp.Rv32.Exec.MemoryAccess
import RiscvVp.Rv32.Exec.System

/-!
# One step of the hart

`execute` is the big switch, `execStep` fetches, decodes and executes one
instruction, `runStep` adds breakpoints, interrupts and traps, and
`performanceAndSyncUpdate` the counters and the quantum.

`takeStep` answers what happened besides.  The source keeps no such answer;
it is what statements about a step's traps and interrupts refer to.
-/

namespace RiscvVp

namespace Rv32

open Interaction

/-! ## The switch -/

/-- `switch (op)`.  The first cases after the defined instructions are those
the decoder accepts and this core does not; the custom opcodes other than
custom-3 fall to the default. -/
def execute (cfg : Config) (instr : Instruction) : Mapping → Body Unit
  | .undef => Body.raiseIllegal instr
  | .lui => Exec.lui cfg instr
  | .auipc => Exec.auipc cfg instr
  | .jal => Exec.jal cfg instr
  | .jalr => Exec.jalr cfg instr
  | .beq => Exec.beq cfg instr
  | .bne => Exec.bne cfg instr
  | .blt => Exec.blt cfg instr
  | .bge => Exec.bge cfg instr
  | .bltu => Exec.bltu cfg instr
  | .bgeu => Exec.bgeu cfg instr
  | .lb => Exec.lb cfg instr
  | .lh => Exec.lh cfg instr
  | .lw => Exec.lw cfg instr
  | .lbu => Exec.lbu cfg instr
  | .lhu => Exec.lhu cfg instr
  | .sb => Exec.sb cfg instr
  | .sh => Exec.sh cfg instr
  | .sw => Exec.sw cfg instr
  | .addi => Exec.addi cfg instr
  | .slti => Exec.slti cfg instr
  | .sltiu => Exec.sltiu cfg instr
  | .xori => Exec.xori cfg instr
  | .ori => Exec.ori cfg instr
  | .andi => Exec.andi cfg instr
  | .slli => Exec.slli cfg instr
  | .srli => Exec.srli cfg instr
  | .srai => Exec.srai cfg instr
  | .add => Exec.add cfg instr
  | .sub => Exec.sub cfg instr
  | .sll => Exec.sll cfg instr
  | .slt => Exec.slt cfg instr
  | .sltu => Exec.sltu cfg instr
  | .xor => Exec.xor cfg instr
  | .srl => Exec.srl cfg instr
  | .sra => Exec.sra cfg instr
  | .or => Exec.or cfg instr
  | .and => Exec.and cfg instr
  | .fence => Exec.fence
  | .ecall => Exec.ecall cfg
  | .ebreak => Exec.ebreak
  | .fenceI => Exec.fence
  | .csrrw => Exec.csrrw cfg instr
  | .csrrs => Exec.csrrs cfg instr
  | .csrrc => Exec.csrrc cfg instr
  | .csrrwi => Exec.csrrwi cfg instr
  | .csrrsi => Exec.csrrsi cfg instr
  | .csrrci => Exec.csrrci cfg instr
  | .mul => Exec.mul cfg instr
  | .mulh => Exec.mulh cfg instr
  | .mulhsu => Exec.mulhsu cfg instr
  | .mulhu => Exec.mulhu cfg instr
  | .div => Exec.div cfg instr
  | .divu => Exec.divu cfg instr
  | .rem => Exec.rem cfg instr
  | .remu => Exec.remu cfg instr
  | .lrW => Exec.lrW cfg instr
  | .scW => Exec.scW cfg instr
  | .amoswapW => Exec.amoswapW instr
  | .amoaddW => Exec.amoaddW instr
  | .amoxorW => Exec.amoxorW instr
  | .amoandW => Exec.amoandW instr
  | .amoorW => Exec.amoorW instr
  | .amominW => Exec.amominW instr
  | .amomaxW => Exec.amomaxW instr
  | .amominuW => Exec.amominuW instr
  | .amomaxuW => Exec.amomaxuW instr
  | .flw => Exec.flw instr
  | .fsw => Exec.fsw instr
  | .fmaddS => Exec.fmaddS cfg instr
  | .fmsubS => Exec.fmsubS cfg instr
  | .fnmaddS => Exec.fnmaddS cfg instr
  | .fnmsubS => Exec.fnmsubS cfg instr
  | .faddS => Exec.faddS cfg instr
  | .fsubS => Exec.fsubS cfg instr
  | .fmulS => Exec.fmulS cfg instr
  | .fdivS => Exec.fdivS cfg instr
  | .fsqrtS => Exec.fsqrtS cfg instr
  | .fsgnjS => Exec.fsgnjS instr
  | .fsgnjnS => Exec.fsgnjnS instr
  | .fsgnjxS => Exec.fsgnjxS instr
  | .fminS => Exec.fminS cfg instr
  | .fmaxS => Exec.fmaxS cfg instr
  | .fcvtWS => Exec.fcvtWS cfg instr
  | .fcvtWuS => Exec.fcvtWuS cfg instr
  | .fmvXW => Exec.fmvXW instr
  | .feqS => Exec.feqS cfg instr
  | .fltS => Exec.fltS cfg instr
  | .fleS => Exec.fleS cfg instr
  | .fclassS => Exec.fclassS cfg instr
  | .fcvtSW => Exec.fcvtSW cfg instr
  | .fcvtSWu => Exec.fcvtSWu cfg instr
  | .fmvWX => Exec.fmvWX instr
  | .fld => Exec.fld instr
  | .fsd => Exec.fsd instr
  | .fmaddD => Exec.fmaddD cfg instr
  | .fmsubD => Exec.fmsubD cfg instr
  | .fnmsubD => Exec.fnmsubD cfg instr
  | .fnmaddD => Exec.fnmaddD cfg instr
  | .faddD => Exec.faddD cfg instr
  | .fsubD => Exec.fsubD cfg instr
  | .fmulD => Exec.fmulD cfg instr
  | .fdivD => Exec.fdivD cfg instr
  | .fsqrtD => Exec.fsqrtD cfg instr
  | .fsgnjD => Exec.fsgnjD instr
  | .fsgnjnD => Exec.fsgnjnD instr
  | .fsgnjxD => Exec.fsgnjxD instr
  | .fminD => Exec.fminD cfg instr
  | .fmaxD => Exec.fmaxD cfg instr
  | .fcvtSD => Exec.fcvtSD cfg instr
  | .fcvtDS => Exec.fcvtDS cfg instr
  | .feqD => Exec.feqD cfg instr
  | .fltD => Exec.fltD cfg instr
  | .fleD => Exec.fleD cfg instr
  | .fclassD => Exec.fclassD cfg instr
  | .fcvtWD => Exec.fcvtWD cfg instr
  | .fcvtWuD => Exec.fcvtWuD cfg instr
  | .fcvtDW => Exec.fcvtDW cfg instr
  | .fcvtDWu => Exec.fcvtDWu cfg instr
  | .uret => Exec.uret instr
  | .sret => Exec.sret instr
  | .mret => Exec.mret
  | .wfi => Exec.wfi instr
  | .sfenceVma => Exec.sfenceVma instr
  | .custom3 => Exec.custom3 cfg instr
  -- accepted by the decoder but not by this simulator
  | .lwu | .ld | .sd | .addiw | .slliw | .srliw | .sraiw | .addw | .subw
  | .sllw | .srlw | .sraw | .mulw | .divw | .divuw | .remw | .remuw | .lrD
  | .scD | .amoswapD | .amoaddD | .amoxorD | .amoandD | .amoorD | .amominD
  | .amomaxD | .amominuD | .amomaxuD | .fcvtLS | .fcvtLuS | .fcvtSL
  | .fcvtSLu | .fcvtLD | .fcvtLuD | .fmvXD | .fcvtDL | .fcvtDLu | .fmvDX =>
      Body.raiseIllegal instr
  | .custom0 | .custom1 | .custom2 => Body.fatal .unknownOpcode

/-! ## One instruction -/

/-- `is_custom`, `is_compressed` or neither: set `op`, step the program counter
past the instruction and require the C extension for a compressed one. -/
def decode : HartM Unit := do
  let instr ← Machine.reads Hart.instr
  if Instruction.isCustom instr then
    Machine.modifies fun hart =>
      { hart with
        op := Instruction.decodeNormal .rv32 instr
        pc := hart.pc + 4 }
  else if Instruction.isCompressed instr then
    match Instruction.decodeAndExpandCompressed .rv32 instr with
    | none => Machine.abort .compressedExpected
    | some (op, expanded) => do
        Machine.modifies fun hart =>
          { hart with
            instr := expanded
            op := op
            pc := hart.pc + 2 }
        let hart ← Machine.reads id
        if op ≠ .undef ∧ !hart.hasExtension Csr.Misa.c then
          raiseIllegalInstruction
  else
    Machine.modifies fun hart =>
      { hart with
        op := Instruction.decodeNormal .rv32 instr
        pc := hart.pc + 4 }

/-- The fetch, whose traps leave no instruction behind. -/
def fetch (cfg : Config) : HartM Unit := do
  let pc ← Machine.reads Hart.pc
  let memWord ← Machine.catchTrap (Memory.loadInstr cfg (pc.setWidth 64))
    fun e => do
      Machine.modifies fun hart => { hart with op := .undef, instr := 0 }
      Machine.raise e
  Machine.modifies fun hart => { hart with instr := memWord }

/-- Execute what has been decoded. -/
def executeDecoded (cfg : Config) : HartM Unit := do
  let hart ← Machine.reads id
  Machine.answering (perform cfg) (execute cfg hart.instr hart.op)

/-- `exec_step` up to the switch. -/
def issue (cfg : Config) : HartM Unit := do
  let hart ← Machine.reads id
  Machine.assert (hart.pc &&& ~~~hart.pcAlignmentMask == 0)
    .misalignedInstruction
  fetch cfg
  decode

/-- `exec_step` -/
def execStep (cfg : Config) : HartM Unit := do
  issue cfg
  executeDecoded cfg

/-! ## Performance and synchronisation -/

/-- `instr_cycles`, in multiples of `cycle_time`. -/
def instrCycles : Mapping → Nat
  | .lb | .lbu | .lh | .lhu | .lw | .sb | .sh | .sw => 4
  | .mul | .mulh | .mulhu | .mulhsu | .div | .divu | .rem | .remu => 8
  | _ => 1

/-- `++csrs.instret.reg` unless inhibited. -/
def countInstruction (hart : Hart) : Hart :=
  if Csr.Mcountinhibit.ir.isSet (hart.csrs .mcountinhibit) then hart
  else
    { hart with
      csrs := hart.csrs.set64 .instret .instreth
        (hart.csrs.get64 .instret .instreth + 1) }

/-- `cycle_counter += new_cycles` unless inhibited. -/
def countCycles (newCycles : Nat) (hart : Hart) : Hart :=
  if Csr.Mcountinhibit.cy.isSet (hart.csrs .mcountinhibit) then hart
  else { hart with cycleCounter := hart.cycleCounter + newCycles }

/-- The forward progress window of a reservation. -/
def tickLrScCounter : HartM Unit := do
  let lrScCounter ← Machine.reads Hart.lrScCounter
  if lrScCounter ≠ 0 then do
    Machine.modifies fun hart =>
      { hart with lrScCounter := hart.lrScCounter - 1 }
    Machine.assert (decide (lrScCounter - 1 ≥ 0)) .lrScCounterNegative
    if lrScCounter - 1 = 0 then releaseLrScReservation

/-- How far the quantum keeper is moved on. -/
def advanceTime (cfg : Config) (newCycles : Nat) : HartM (BitVec 64) :=
  if cfg.pipelineTiming then do
    Machine.modifies fun hart =>
      { hart with pipeline := hart.pipeline.advance 1 }
    let hart ← Machine.reads id
    Machine.modifies fun hart =>
      { hart with lastCycles := hart.pipeline.numTotalCycles }
    pure (hart.pipeline.numTotalCycles - hart.lastCycles)
  else pure (BitVec.ofNat 64 newCycles)

/-- A core inside a reservation does not give way to the others. -/
def synchronise (advance : BitVec 64) : HartM Unit := do
  let needSync : Bool ← call (.needSync advance)
  let lrScCounter ← Machine.reads Hart.lrScCounter
  if needSync ∧ lrScCounter = 0 then do
    let interrupts ← call .sync
    deliver interrupts

/-- `performance_and_sync_update` -/
def performanceAndSyncUpdate (cfg : Config) (executedOp : Mapping) :
    HartM Unit := do
  Machine.modifies countInstruction
  tickLrScCounter
  let newCycles := instrCycles executedOp
  Machine.modifies (countCycles newCycles)
  let advance ← advanceTime cfg newCycles
  synchronise advance

/-! ## A whole step -/

/-- What a step did besides executing. -/
inductive StepEvent : Type
  | hitBreakpoint
  | retired
  | interrupted (pending : PendingInterrupts)
  | trapped (trap : SimulationTrap) (target : PrivilegeLevel)
  deriving DecidableEq

/-- Take the interrupt that is due, if one is. -/
def takeInterrupt : HartM StepEvent := do
  let x ← Machine.reads computePendingInterrupts
  if x.targetMode ≠ noneMode then do
    prepareInterrupt x
    switchToTrapHandler x.targetMode
    pure (.interrupted x)
  else pure .retired

def takeTrap (trap : SimulationTrap) : HartM StepEvent := do
  observe .trapCaught
  let targetMode ← prepareTrap trap
  switchToTrapHandler targetMode
  pure (.trapped trap targetMode)

/-- The `try` block of `run_step` and its handler. -/
def takeStep (cfg : Config) : HartM StepEvent :=
  Machine.catchTrap (execStep cfg >>= fun _ => takeInterrupt) takeTrap

/-- What follows the `try` block. -/
def finishStep (cfg : Config) : HartM Unit := do
  Machine.modifies fun hart => hart.setReg 0 0
  Machine.modifies fun hart =>
    if hart.shallExit then { hart with status := .terminated } else hart
  let op ← Machine.reads Hart.op
  performanceAndSyncUpdate cfg op

/-- `run_step` -/
def runStep (cfg : Config) : HartM StepEvent := do
  let hart ← Machine.reads id
  Machine.assert (hart.regs 0 == 0) .zeroRegisterClobbered
  if hart.debugMode && hart.breakpoints hart.pc then do
    Machine.modifies fun hart => { hart with status := .hitBreakpoint }
    pure .hitBreakpoint
  else do
    Machine.modifies fun hart => { hart with lastPc := hart.pc }
    let event ← takeStep cfg
    finishStep cfg
    pure event

end Rv32

end RiscvVp
