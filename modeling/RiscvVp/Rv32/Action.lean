import RiscvVp.Core.Instruction
import RiscvVp.Rv32.Memory
import RiscvVp.Rv32.Privileged

/-!
# What an instruction body does

The bodies of the big switch are programs over the simulator's own services:
its register files, its program counter, its memory interface, its CSR
accessors, its timing model.  An `Action` is one use of a service and
`perform` says what it does to the hart.

Keeping the actions apart from their effect lets a fact about every
instruction be proved once for every action.
-/

namespace RiscvVp

namespace Rv32

open Interaction

/-- A call of the pipeline timing model. -/
inductive PipelineEvent : Type
  | accessRegister (regIdx : BitVec 5)
  | reserveStore (addrRange : Timing.Range) (numCycles : Nat)
  | doLoad (addrRange : Timing.Range) (rd : BitVec 5) (latency : Nat)
      (positive : 0 < latency)
  | doMult (rd : BitVec 5)
  | doDiv (rd : BitVec 5)
  | doCsr (rd : BitVec 5)

/-- What the timing model makes of it; nothing when an assertion fails. -/
def PipelineEvent.apply (pipeline : HiFive1PipelineTiming) :
    PipelineEvent → Option HiFive1PipelineTiming
  | .accessRegister regIdx => some (pipeline.accessRegister regIdx)
  | .reserveStore addrRange numCycles =>
      some (pipeline.reserveStore addrRange numCycles)
  | .doLoad addrRange rd latency positive =>
      pipeline.doLoad addrRange rd latency positive
  | .doMult rd => pipeline.doMult rd
  | .doDiv rd => pipeline.doDiv rd
  | .doCsr rd => pipeline.doCsr rd

inductive Action : Type
  | reg (regIdx : BitVec 5)
  | setReg (regIdx : BitVec 5) (value : BitVec 32)
  | fpReg (regIdx : BitVec 5)
  | setFpReg (regIdx : BitVec 5) (value : BitVec 64)
  | pc
  | setPc (value : BitVec 32)
  | lastPc
  | prv
  | csr (register : Csr.Register)
  | lrScCounter
  | setLrScCounter (value : Int)
  | hitBreakpoint
  | ignoreWfi
  | raiseTrap (reason : ExceptionCode) (mtval : BitVec 64)
  | fatal (reason : Fatal)
  | exceptionFlags
  | raiseFlags (flags : Fp.Flags)
  | roundingMode
  | setRoundingMode (mode : Fp.RoundingMode)
  | fpSetDirty
  | fpUpdateExceptionFlags
  | isInvalidCsrAccess (addr : BitVec 32) (isWrite : Bool)
  | getCsrValue (addr : BitVec 32)
  | setCsrValue (addr value : BitVec 32)
  | loadData (bytes : Nat) (addr : BitVec 64)
  | storeData (bytes : Nat) (addr : BitVec 64) (data : BitVec (8 * bytes))
  | amoLoadWord (addr : BitVec 64)
  | atomicStoreWord (addr : BitVec 64) (value : BitVec 32)
  | atomicLoadReservedWord (addr : BitVec 64)
  | atomicStoreConditionalWord (addr : BitVec 64) (value : BitVec 32)
  | releaseLrScReservation
  | flushTlb
  | executeSyscall
  | waitWfi
  | returnFromTrapHandler (returnMode : PrivilegeLevel)
  | pipeline (event : PipelineEvent)

namespace Action

/-- The type of an action's answer; a trap has none. -/
abbrev Answer : Action → Type
  | .reg _ => BitVec 32
  | .fpReg _ => BitVec 64
  | .pc => BitVec 32
  | .lastPc => BitVec 32
  | .prv => PrivilegeLevel
  | .csr _ => BitVec 32
  | .lrScCounter => Int
  | .ignoreWfi => Bool
  | .raiseTrap _ _ => Empty
  | .fatal _ => Empty
  | .exceptionFlags => Fp.Flags
  | .roundingMode => Fp.RoundingMode
  | .isInvalidCsrAccess _ _ => Bool
  | .getCsrValue _ => BitVec 32
  | .loadData bytes _ => BitVec (8 * bytes)
  | .amoLoadWord _ => BitVec 32
  | .atomicLoadReservedWord _ => BitVec 32
  | .atomicStoreConditionalWord _ _ => Bool
  | _ => Unit

end Action

/-! ## The effect of an action -/

namespace Hart

def setReg (hart : Hart) (regIdx : BitVec 5) (value : BitVec 32) : Hart :=
  { hart with
    regs := fun r => if r = regIdx then value else hart.regs r }

def setFpReg (hart : Hart) (regIdx : BitVec 5) (value : BitVec 64) : Hart :=
  { hart with
    fpRegs := fun r => if r = regIdx then value else hart.fpRegs r }

/-- `FS_DIRTY` and `sd`. -/
def fpSetDirty (hart : Hart) : Hart :=
  (hart.setCsrField .mstatus Csr.Mstatus.sd 1).setCsrField .mstatus
    Csr.Mstatus.fs 0b11

/-- `fp_update_exception_flags`: accrue the raised flags and clear them. -/
def fpUpdateExceptionFlags (hart : Hart) : Hart :=
  if hart.softfloatExceptionFlags ≠ 0 then
    let dirty := hart.fpSetDirty
    { dirty.setCsrField .fcsr Csr.Fcsr.fflags
        (Csr.Fcsr.fflags.get (dirty.csrs .fcsr) |||
          hart.softfloatExceptionFlags) with
      softfloatExceptionFlags := 0 }
  else hart

/-- `get_syscall_register_index` -/
def syscallRegisterIndex (hart : Hart) : BitVec 5 :=
  if hart.hasExtension Csr.Misa.e then 15 else 17

end Hart

/-- The atomic load of `execute_amo`, whose access fault is reported as that
of a store. -/
def amoLoadWord (cfg : Config) (addr : BitVec 64) : HartM (BitVec 32) :=
  Machine.catchTrap (Memory.atomicLoadWord cfg addr) fun e =>
    Machine.raise <|
      if e.reason = .loadAccessFault then
        { e with reason := .storeAmoAccessFault }
      else e

/-- `SyscallHandler::execute_syscall` -/
def executeSyscall : HartM Unit := do
  let hart ← Machine.reads id
  let reply : SyscallReply ←
    call (.executeSyscall (hart.regs hart.syscallRegisterIndex)
      (hart.regs 10) (hart.regs 11) (hart.regs 12) (hart.regs 13))
  match reply with
  | .returns value shallExit => do
      Machine.modifies fun hart => hart.setReg 10 value
      if shallExit then
        Machine.modifies fun hart => { hart with shallExit := true }
  | .fatal => Machine.abort .syscall

def waitWfi : HartM Unit := do
  let interrupts ← call .waitWfi
  deliver interrupts

/-- Apply a timing event, or die of its assertion. -/
def advancePipeline (event : PipelineEvent) : HartM Unit := do
  let pipeline ← Machine.reads Hart.pipeline
  match event.apply pipeline with
  | some pipeline =>
      Machine.modifies fun hart => { hart with pipeline := pipeline }
  | none => Machine.abort .registerAlreadyPending

/-- What an action does. -/
def perform (cfg : Config) : (action : Action) → HartM action.Answer
  | .reg regIdx => Machine.reads fun hart => hart.regs regIdx
  | .setReg regIdx value =>
      Machine.modifies fun hart => hart.setReg regIdx value
  | .fpReg regIdx => Machine.reads fun hart => hart.fpRegs regIdx
  | .setFpReg regIdx value =>
      Machine.modifies fun hart => hart.setFpReg regIdx value
  | .pc => Machine.reads Hart.pc
  | .setPc value => Machine.modifies fun hart => { hart with pc := value }
  | .lastPc => Machine.reads Hart.lastPc
  | .prv => Machine.reads Hart.prv
  | .csr register => Machine.reads fun hart => hart.csrs register
  | .lrScCounter => Machine.reads Hart.lrScCounter
  | .setLrScCounter value =>
      Machine.modifies fun hart => { hart with lrScCounter := value }
  | .hitBreakpoint =>
      Machine.modifies fun hart => { hart with status := .hitBreakpoint }
  | .ignoreWfi => Machine.reads Hart.ignoreWfi
  | .raiseTrap reason mtval => Machine.raise ⟨reason, mtval⟩
  | .fatal reason => Machine.abort reason
  | .exceptionFlags => Machine.reads Hart.softfloatExceptionFlags
  | .raiseFlags flags =>
      Machine.modifies fun hart =>
        { hart with
          softfloatExceptionFlags := hart.softfloatExceptionFlags ||| flags }
  | .roundingMode => Machine.reads Hart.softfloatRoundingMode
  | .setRoundingMode mode =>
      Machine.modifies fun hart => { hart with softfloatRoundingMode := mode }
  | .fpSetDirty => Machine.modifies Hart.fpSetDirty
  | .fpUpdateExceptionFlags => Machine.modifies Hart.fpUpdateExceptionFlags
  | .isInvalidCsrAccess addr isWrite => isInvalidCsrAccess addr isWrite
  | .getCsrValue addr => getCsrValue cfg addr
  | .setCsrValue addr value => setCsrValue addr value
  | .loadData bytes addr => Memory.loadData cfg bytes addr
  | .storeData bytes addr data => Memory.storeData cfg bytes addr data
  | .amoLoadWord addr => amoLoadWord cfg addr
  | .atomicStoreWord addr value => Memory.atomicStoreWord cfg addr value
  | .atomicLoadReservedWord addr => Memory.atomicLoadReservedWord cfg addr
  | .atomicStoreConditionalWord addr value =>
      Memory.atomicStoreConditionalWord cfg addr value
  | .releaseLrScReservation => releaseLrScReservation
  | .flushTlb => Memory.flushTlb cfg
  | .executeSyscall => executeSyscall
  | .waitWfi => waitWfi
  | .returnFromTrapHandler returnMode => returnFromTrapHandler returnMode
  | .pipeline event => advancePipeline event

/-! ## Bodies -/

/-- The body of an instruction. -/
abbrev Body (α : Type) : Type := Program Action.Answer α

namespace Body

/-- Perform one action. -/
def act {α : Type} (action : Action)
    (receive : action.Answer → α := by exact id) : Body α :=
  Program.ask action receive

def reg (regIdx : BitVec 5) : Body (BitVec 32) := act (.reg regIdx)

def setReg (regIdx : BitVec 5) (value : BitVec 32) : Body Unit :=
  act (.setReg regIdx value)

def pc : Body (BitVec 32) := act .pc

def setPc (value : BitVec 32) : Body Unit := act (.setPc value)

def lastPc : Body (BitVec 32) := act .lastPc

def prv : Body PrivilegeLevel := act .prv

def csr (register : Csr.Register) : Body (BitVec 32) := act (.csr register)

/-- `raise_trap` -/
def raiseTrap {α : Type} (reason : ExceptionCode) (mtval : BitVec 64) :
    Body α :=
  .call (.raiseTrap reason mtval) fun never => nomatch never

def fatal {α : Type} (reason : Fatal) : Body α :=
  .call (.fatal reason) fun never => nomatch never

/-- The value of a division of the host. -/
def divided {α : Type} : Option α → Body α
  | some value => pure value
  | none => fatal .undefinedDivision

@[simp]
theorem divided_some {α : Type} (value : α) :
    divided (some value) = pure value :=
  rfl

/-- `raise_trap(EXC_ILLEGAL_INSTR, instr.data())` -/
def raiseIllegal {α : Type} (instr : Instruction) : Body α :=
  raiseTrap .illegalInstr (instr.setWidth 64)

/-- `REQUIRE_ISA` -/
def requireIsa (instr : Instruction) (extension : BitVec 32) :
    Body Unit := do
  let misa ← csr .misa
  if !Csr.Misa.has misa extension then raiseIllegal instr

/-! ### The wrappers of the timing build -/

def accessRegister (regIdx : BitVec 5) : Body Unit :=
  act (.pipeline (.accessRegister regIdx))

def read (regIdx : BitVec 5) : Body (BitVec 32) := do
  accessRegister regIdx
  reg regIdx

def write (regIdx : BitVec 5) (value : BitVec 32) : Body Unit := do
  accessRegister regIdx
  setReg regIdx value

/-- `RegFile::shamt` of a register's value. -/
def shamtOf (value : BitVec 32) : Nat :=
  (value.extractLsb' 0 5).toNat

/-! ### Alignment checks -/

def trapCheckPcAlignment : Body Unit := do
  let pc ← pc
  if pc &&& 0x1 ≠ 0 then fatal .oddPc
  let misa ← csr .misa
  if pc &&& 0x3 ≠ 0 ∧ !Csr.Misa.has misa Csr.Misa.c then
    raiseTrap .instrAddrMisaligned (pc.setWidth 64)

/-- `trap_check_addr_alignment<Alignment, isLoad>` -/
def trapCheckAddrAlignment (alignment : Nat) (isLoad : Bool)
    (addr : BitVec 32) : Body Unit :=
  if addr.toNat % alignment ≠ 0 then
    raiseTrap
      (if isLoad then .loadAddrMisaligned else .storeAmoAddrMisaligned)
      (addr.setWidth 64)
  else pure ()

end Body

end Rv32

end RiscvVp
