import Mathlib
import RiscvVp.Rv32.CsrAccess
import RiscvVp.Rv32.Memory

/-!
# Traps, interrupts and returns

What changes the privilege level: the three returns, and the entry to a trap
handler after a trap or an interrupt.
-/

namespace RiscvVp

namespace Rv32

open Bits Csr Interaction

/-- `release_lr_sc_reservation` -/
def releaseLrScReservation : HartM Unit := do
  Machine.modifies fun hart => { hart with lrScCounter := 0 }
  Memory.atomicUnlock

/-! ## Returns -/

/-- `MRET`: the state after `return_from_trap_handler(MachineMode)`. -/
def machineReturn (hart : Hart) : Hart :=
  let mstatus := hart.csrs .mstatus
  let lowered : BitVec 2 := if hart.hasExtension Misa.u then 0b00 else 0b11
  { hart with
    prv := (Mstatus.mpp.get mstatus).setWidth 32
    pc := hart.csrs .mepc
    csrs := hart.csrs.set .mstatus <|
      Mstatus.mpp.set lowered <| Mstatus.mpie.set 1 <|
        Mstatus.mie.set (Mstatus.mpie.get mstatus) mstatus }

/-- `SRET` -/
def supervisorReturn (hart : Hart) : Hart :=
  let mstatus := hart.csrs .mstatus
  let lowered : BitVec 1 := if hart.hasExtension Misa.u then 0 else 1
  { hart with
    prv := (Mstatus.spp.get mstatus).setWidth 32
    pc := hart.csrs .sepc
    csrs := hart.csrs.set .mstatus <|
      Mstatus.spp.set lowered <| Mstatus.spie.set 1 <|
        Mstatus.sie.set (Mstatus.spie.get mstatus) mstatus }

/-- `URET` -/
def userReturn (hart : Hart) : Hart :=
  let mstatus := hart.csrs .mstatus
  { hart with
    prv := userMode
    pc := hart.csrs .uepc
    csrs := hart.csrs.set .mstatus <|
      Mstatus.upie.set 1 <| Mstatus.uie.set (Mstatus.upie.get mstatus) mstatus }

def returnFromTrapHandler (returnMode : PrivilegeLevel) : HartM Unit :=
  if returnMode = machineMode then Machine.modifies machineReturn
  else if returnMode = supervisorMode then Machine.modifies supervisorReturn
  else if returnMode = userMode then Machine.modifies userReturn
  else Machine.abort .unknownPrivilegeLevel

/-! ## Traps -/

/-- The registers of a mode's trap handler. -/
structure TrapRegisters where
  cause : Register
  tval : Register
  epc : Register
  tvec : Register

def machineTrap : TrapRegisters := ⟨.mcause, .mtval, .mepc, .mtvec⟩

def supervisorTrap : TrapRegisters := ⟨.scause, .stval, .sepc, .stvec⟩

def userTrap : TrapRegisters := ⟨.ucause, .utval, .uepc, .utvec⟩

/-- Assign the two fields of a cause register. -/
def setCause (hart : Hart) (cause : Register) (interrupt : BitVec 1)
    (code : Nat) : Hart :=
  hart.setCsr cause <|
    Mcause.exceptionCode.set (BitVec.ofNat 31 code) <|
      Mcause.interrupt.set interrupt (hart.csrs cause)

/-- `boost::lexical_cast<uint32_t>` accepts what fits. -/
def lexicalCast (mtval : BitVec 64) : Option (BitVec 32) :=
  if mtval.toNat < 2 ^ 32 then some (mtval.setWidth 32) else none

/-- Record the trap in the registers of its mode. -/
def recordTrap (registers : TrapRegisters) (trap : SimulationTrap) :
    HartM Unit := do
  Machine.modifies fun hart => setCause hart registers.cause 0 trap.reason.code
  match lexicalCast trap.mtval with
  | some mtval => Machine.modifies fun hart => hart.setCsr registers.tval mtval
  | none => Machine.abort .badLexicalCast

/-- The mode that `prepare_trap` chooses. -/
def trapTarget (hart : Hart) (reason : ExceptionCode) : PrivilegeLevel :=
  if hart.prv = machineMode ∨ !(hart.csrs .medeleg).getLsbD reason.code then
    machineMode
  else if hart.prv = supervisorMode ∨
      !(hart.csrs .sedeleg).getLsbD reason.code then
    supervisorMode
  else userMode

/-- `prepare_trap`: the program counter points back at the instruction. -/
def prepareTrap (trap : SimulationTrap) : HartM PrivilegeLevel := do
  Machine.modifies fun hart => { hart with pc := hart.lastPc }
  let hart ← Machine.reads id
  let target := trapTarget hart trap.reason
  if target = machineMode then recordTrap machineTrap trap
  else if target = supervisorMode then recordTrap supervisorTrap trap
  else do
    Machine.assert hart.uMode .trapDelegation
    recordTrap userTrap trap
  pure target

/-! ## Interrupts -/

/-- `PendingInterrupts` -/
structure PendingInterrupts where
  targetMode : PrivilegeLevel
  pending : BitVec 32
  deriving DecidableEq

def computePendingInterrupts (hart : Hart) : PendingInterrupts :=
  let pending := hart.csrs .mie &&& hart.csrs .mip
  if pending = 0 then ⟨noneMode, 0⟩
  else
    let mPending := pending &&& ~~~hart.csrs .mideleg
    if mPending ≠ 0 ∧ (hart.prv < machineMode ∨
        (hart.prv = machineMode ∧
          Mstatus.mie.isSet (hart.csrs .mstatus))) then
      ⟨machineMode, mPending⟩
    else
      let pending := pending &&& hart.csrs .mideleg
      let sPending := pending &&& ~~~hart.csrs .sideleg
      if sPending ≠ 0 ∧ (hart.prv < supervisorMode ∨
          (hart.prv = supervisorMode ∧
            Mstatus.sie.isSet (hart.csrs .mstatus))) then
        ⟨supervisorMode, sPending⟩
      else
        let uPending := pending &&& hart.csrs .sideleg
        if uPending ≠ 0 ∧ (hart.prv = userMode ∧
            Mstatus.uie.isSet (hart.csrs .mstatus)) then
          ⟨userMode, uPending⟩
        else ⟨noneMode, 0⟩

/-- The chain of `if`s over the pending bits. -/
def highestPriority (x : BitVec 32) : Option ExceptionCode :=
  if Mip.meip.isSet x then some .mExternalInterrupt
  else if Mip.msip.isSet x then some .mSoftwareInterrupt
  else if Mip.mtip.isSet x then some .mTimerInterrupt
  else if Mip.seip.isSet x then some .sExternalInterrupt
  else if Mip.ssip.isSet x then some .sSoftwareInterrupt
  else if Mip.stip.isSet x then some .sTimerInterrupt
  else if Mip.ueip.isSet x then some .uExternalInterrupt
  else if Mip.usip.isSet x then some .uSoftwareInterrupt
  else if Mip.utip.isSet x then some .uTimerInterrupt
  else none

def prepareInterrupt (e : PendingInterrupts) : HartM Unit :=
  match highestPriority e.pending with
  | none => Machine.abort .noPendingInterrupt
  | some exc =>
      if e.targetMode = machineMode then
        Machine.modifies fun hart => setCause hart .mcause 1 exc.code
      else if e.targetMode = supervisorMode then
        Machine.modifies fun hart => setCause hart .scause 1 exc.code
      else if e.targetMode = userMode then
        Machine.modifies fun hart => setCause hart .ucause 1 exc.code
      else Machine.abort .unknownPrivilegeLevel

/-! ## Entry to a handler -/

/-- The address that `xtvec` and `xcause` name. -/
def handlerAddress (tvec cause : BitVec 32) : BitVec 32 :=
  let base := Mtvec.getBaseAddress tvec
  if Mcause.interrupt.isSet cause ∧ Mtvec.mode.get tvec = Mtvec.vectored then
    base + 4 * (Mcause.exceptionCode.get cause).setWidth 32
  else base

/-- The assignments of `switch_to_trap_handler` for machine mode, after `prv`
has been saved and assigned. -/
def enterMachine (pp : PrivilegeLevel) (hart : Hart) : Hart :=
  let mstatus := hart.csrs .mstatus
  { hart with
    pc := handlerAddress (hart.csrs .mtvec) (hart.csrs .mcause)
    csrs := (hart.csrs.set .mepc hart.pc).set .mstatus <|
      Mstatus.mpp.set (pp.setWidth 2) <| Mstatus.mie.set 0 <|
        Mstatus.mpie.set (Mstatus.mie.get mstatus) mstatus }

def enterSupervisor (pp : PrivilegeLevel) (hart : Hart) : Hart :=
  let mstatus := hart.csrs .mstatus
  { hart with
    pc := handlerAddress (hart.csrs .stvec) (hart.csrs .scause)
    csrs := (hart.csrs.set .sepc hart.pc).set .mstatus <|
      Mstatus.spp.set (pp.setWidth 1) <| Mstatus.sie.set 0 <|
        Mstatus.spie.set (Mstatus.sie.get mstatus) mstatus }

def enterUser (hart : Hart) : Hart :=
  let mstatus := hart.csrs .mstatus
  { hart with
    pc := handlerAddress (hart.csrs .utvec) (hart.csrs .ucause)
    csrs := (hart.csrs.set .uepc hart.pc).set .mstatus <|
      Mstatus.uie.set 0 <| Mstatus.upie.set (Mstatus.uie.get mstatus) mstatus }

def switchToTrapHandler (targetMode : PrivilegeLevel) : HartM Unit := do
  releaseLrScReservation
  let pp ← Machine.reads Hart.prv
  Machine.modifies fun hart => { hart with prv := targetMode }
  if targetMode = machineMode then Machine.modifies (enterMachine pp)
  else if targetMode = supervisorMode then
    Machine.modifies (enterSupervisor pp)
  else if targetMode = userMode then Machine.modifies enterUser
  else Machine.abort .unknownPrivilegeLevel

end Rv32

end RiscvVp
