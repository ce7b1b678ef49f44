import RiscvVp.Rv32.Action
import RiscvVp.Rv32.Nice

/-!
# System, privileged and custom instructions
-/

namespace RiscvVp

namespace Rv32

namespace Exec

open Body

variable (cfg : Config) (instr : Instruction)

/-- `FENCE` and `FENCE_I` -/
def fence : Body Unit := pure ()

def ecall : Body Unit :=
  if cfg.sys then act .executeSyscall
  else do
    let prv ← prv
    let lastPc ← lastPc
    if prv = machineMode then raiseTrap .ecallMMode (lastPc.setWidth 64)
    else if prv = supervisorMode then
      raiseTrap .ecallSMode (lastPc.setWidth 64)
    else if prv = userMode then raiseTrap .ecallUMode (lastPc.setWidth 64)
    else fatal .unknownPrivilegeLevel

def ebreak : Body Unit := act .hitBreakpoint

def mstatusIsSet (field : Bits.BitField 32) : Body Bool := do
  let mstatus ← csr .mstatus
  pure (field.isSet mstatus)

def hasExtension (extension : BitVec 32) : Body Bool := do
  let misa ← csr .misa
  pure (Csr.Misa.has misa extension)

def hasLocalPendingEnabledInterrupts : Body Bool := do
  let mie ← csr .mie
  let mip ← csr .mip
  pure (mie &&& mip != 0)

/-- `WFI` gives up a reservation before it checks anything. -/
def wfi : Body Unit := do
  act .releaseLrScReservation
  let prv ← prv
  let tw ← mstatusIsSet Csr.Mstatus.tw
  if prv = supervisorMode ∧ tw then raiseIllegal instr
  let supervisor ← hasExtension Csr.Misa.s
  if prv = userMode ∧ supervisor then raiseIllegal instr
  let ignoreWfi : Bool ← act .ignoreWfi
  let pending ← hasLocalPendingEnabledInterrupts
  if !ignoreWfi ∧ !pending then act .waitWfi

def sfenceVma : Body Unit := do
  let prv ← prv
  let tvm ← mstatusIsSet Csr.Mstatus.tvm
  if prv = supervisorMode ∧ tvm then raiseIllegal instr
  act .flushTlb

def uret : Body Unit := do
  let user ← hasExtension Csr.Misa.u
  if !user then raiseIllegal instr
  act (.returnFromTrapHandler userMode)

def sret : Body Unit := do
  let supervisor ← hasExtension Csr.Misa.s
  let prv ← prv
  let tsr ← mstatusIsSet Csr.Mstatus.tsr
  if !supervisor ∨ (prv = supervisorMode ∧ tsr) then raiseIllegal instr
  act (.returnFromTrapHandler supervisorMode)

/-- `MRET` is the one return without a check. -/
def mret : Body Unit := act (.returnFromTrapHandler machineMode)

/-! ## The custom-3 opcode -/

/-- The function codes of the NICE coprocessors and what they compute; other
codes have no case. -/
def niceFunction (instr : Instruction) :
    Option (BitVec 32 → BitVec 32 → BitVec 32) :=
  if instr.funct3 = 0b111 then
    match instr.funct7 with
    | 0b0000000 => some fun a b => a + b
    | 0b0000001 => some fun a _ => Sm3Nice.custom3Sm3p0 a
    | 0b0000010 => some fun a _ => Sm3Nice.custom3Sm3p1 a
    | 0b0000011 => some Sm4Nice.custom3Sm4ks
    | 0b0000100 => some Sm4Nice.custom3Sm4ed
    | 0b0000101 => some fun a _ => Sm4Nice.custom3Sm4ksT a
    | 0b0000110 => some fun a _ => Sm4Nice.custom3Sm4edT a
    | 0b0000111 => some fun a _ => Sm4Nice.custom3Sm4ksL a
    | 0b0001000 => some fun a _ => Sm4Nice.custom3Sm4edL a
    | 0b0001001 => some fun a _ => Sm4Nice.custom3Sm4ksNonlinear a
    | 0b0001010 => some fun a _ => Sm4Nice.custom3Sm4edNonlinear a
    | _ => none
  else none

/-- The codes whose function takes `rs2` as well. -/
def niceReadsRs2 (instr : Instruction) : Bool :=
  instr.funct7 == 0b0000000 || instr.funct7 == 0b0000011 ||
    instr.funct7 == 0b0000100

/-- `CUSTOM3`; a function code without a case does nothing. -/
def custom3 : Body Unit :=
  match niceFunction instr with
  | none => pure ()
  | some f =>
      if cfg.pipelineTiming then do
        let a ← read instr.rs1
        let b ← if niceReadsRs2 instr then read instr.rs2 else pure 0
        write instr.rd (f a b)
      else do
        let a ← reg instr.rs1
        let b ← if niceReadsRs2 instr then reg instr.rs2 else pure 0
        setReg instr.rd (f a b)

end Exec

end Rv32

end RiscvVp
