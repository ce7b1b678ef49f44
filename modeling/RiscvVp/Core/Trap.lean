import Mathlib.Data.Nat.Notation

/-!
# Privilege levels, exception codes and traps

The vocabulary that every part of the core shares.  Exception and interrupt
codes are one enumeration in the source, with repeated numbers; here the
repetition lives in `ExceptionCode.code` and the names stay apart.

`Fatal` lists the ways in which the simulator itself gives up: a failed
`assert`, a C++ exception that is not a guest trap, or a dereferenced null
pointer.
-/

namespace RiscvVp

/-- `typedef uint32_t PrivilegeLevel`. -/
abbrev PrivilegeLevel : Type := BitVec 32

namespace PrivilegeLevel

def machineMode : PrivilegeLevel := 0b11

def supervisorMode : PrivilegeLevel := 0b01

def userMode : PrivilegeLevel := 0b00

/-- The sentinel `-1`, which is above every mode. -/
def noneMode : PrivilegeLevel := -1

/-- `is_valid_privilege_level`. -/
def isValid (mode : PrivilegeLevel) : Prop :=
  mode = machineMode ∨ mode = supervisorMode ∨ mode = userMode

instance (mode : PrivilegeLevel) : Decidable mode.isValid :=
  inferInstanceAs (Decidable (_ ∨ _))

@[simp]
theorem machineMode_ne_supervisorMode : machineMode ≠ supervisorMode := by
  decide

@[simp]
theorem machineMode_ne_userMode : machineMode ≠ userMode := by
  decide

@[simp]
theorem supervisorMode_ne_machineMode : supervisorMode ≠ machineMode := by
  decide

@[simp]
theorem supervisorMode_ne_userMode : supervisorMode ≠ userMode := by
  decide

@[simp]
theorem userMode_ne_machineMode : userMode ≠ machineMode := by
  decide

@[simp]
theorem userMode_ne_supervisorMode : userMode ≠ supervisorMode := by
  decide

end PrivilegeLevel

export PrivilegeLevel (machineMode supervisorMode userMode noneMode)

/-- Interrupt causes first, then exception causes. -/
inductive ExceptionCode : Type
  | uSoftwareInterrupt
  | sSoftwareInterrupt
  | mSoftwareInterrupt
  | uTimerInterrupt
  | sTimerInterrupt
  | mTimerInterrupt
  | uExternalInterrupt
  | sExternalInterrupt
  | mExternalInterrupt
  | instrAddrMisaligned
  | instrAccessFault
  | illegalInstr
  | breakpoint
  | loadAddrMisaligned
  | loadAccessFault
  | storeAmoAddrMisaligned
  | storeAmoAccessFault
  | ecallUMode
  | ecallSMode
  | ecallMMode
  | instrPageFault
  | loadPageFault
  | storeAmoPageFault
  deriving DecidableEq, Repr

/-- The number written to an `xcause` register. -/
def ExceptionCode.code : ExceptionCode → Nat
  | uSoftwareInterrupt => 0
  | sSoftwareInterrupt => 1
  | mSoftwareInterrupt => 3
  | uTimerInterrupt => 4
  | sTimerInterrupt => 5
  | mTimerInterrupt => 7
  | uExternalInterrupt => 8
  | sExternalInterrupt => 9
  | mExternalInterrupt => 11
  | instrAddrMisaligned => 0
  | instrAccessFault => 1
  | illegalInstr => 2
  | breakpoint => 3
  | loadAddrMisaligned => 4
  | loadAccessFault => 5
  | storeAmoAddrMisaligned => 6
  | storeAmoAccessFault => 7
  | ecallUMode => 8
  | ecallSMode => 9
  | ecallMMode => 11
  | instrPageFault => 12
  | loadPageFault => 13
  | storeAmoPageFault => 15

/-- What `raise_trap` throws. -/
structure SimulationTrap where
  reason : ExceptionCode
  mtval : BitVec 64
  deriving DecidableEq, Repr

inductive MemoryAccessType : Type
  | fetch
  | load
  | store
  deriving DecidableEq, Repr

inductive CoreExecStatus : Type
  | runnable
  | hitBreakpoint
  | terminated
  deriving DecidableEq, Repr

inductive Architecture : Type
  | rv32
  | rv64
  deriving DecidableEq, Repr

/-- How the simulator dies. -/
inductive Fatal : Type
  /-- `assert(((pc & ~pc_alignment_mask()) == 0) && "misaligned instruction")` -/
  | misalignedInstruction
  /-- `assert(!(pc & 0x1) && ...)` in `trap_check_pc_alignment` -/
  | oddPc
  /-- `assert(regs.read(0) == 0)` in `run_step` -/
  | zeroRegisterClobbered
  /-- `throw std::runtime_error("unknown opcode")` -/
  | unknownOpcode
  /-- `throw std::runtime_error("compressed instruction expected, ...")` -/
  | compressedExpected
  /-- `throw std::runtime_error("unknown privilege level ...")` -/
  | unknownPrivilegeLevel
  /-- `throw std::runtime_error("some pending interrupt must be available here")` -/
  | noPendingInterrupt
  /-- `assert(mode == 0 || mode == 1)` in the MMU -/
  | mmuMode
  /-- `throw std::runtime_error("unknown Sv (satp) mode ...")` -/
  | unknownSatpMode
  /-- `mmu->flush_tlb()` with no MMU attached -/
  | nullMmu
  /-- `assert(bus_lock->is_locked(iss.get_hart_id()))` in `atomic_store_word` -/
  | amoNotLocked
  /-- `assert((addr + sizeof(T)) <= end)` in `MemoryDMI` -/
  | dmiRange
  /-- an assertion of the platform behind a bus transaction -/
  | platform
  /-- `boost::lexical_cast<uint32_t>(e.mtval)` -/
  | badLexicalCast
  /-- the assertions of `prepare_trap` and `switch_to_trap_handler` -/
  | trapDelegation
  /-- `assert(softfloat_exceptionFlags == 0)` -/
  | softfloatFlags
  /-- `assert(!_find(reg_idx))` in the pipeline model -/
  | registerAlreadyPending
  /-- `assert(lr_sc_counter >= 0)` -/
  | lrScCounterNegative
  /-- an assertion of the system call emulation -/
  | syscall
  /-- a quotient or a remainder that the host leaves undefined -/
  | undefinedDivision
  deriving DecidableEq, Repr

end RiscvVp
