import Mathlib
import RiscvVp.Core.Mmu
import RiscvVp.Core.Opcode
import RiscvVp.Interaction.Machine
import RiscvVp.Rv32.Csr
import RiscvVp.Rv32.Float
import RiscvVp.Rv32.Timing

/-!
# The hart and its surroundings

A hart is the state of one `ISS` together with the parts of its memory
interface and MMU that belong to it alone.  Everything outside is reached by a
`Call`: the bus, memory behind a DMI range, the bus lock shared with the other
harts, the clock, the scheduler.

The surroundings may raise or clear interrupts whenever they run, so the calls
that can let them run reply with the interrupt events of the meantime.

`Call.observe` has no counterpart in the source and no effect.  It announces
the points of an execution that statements about several harts speak of.
-/

namespace RiscvVp

namespace Rv32

open Interaction

/-! ## Build and platform -/

/-- The arguments of `MemoryDMI::create_start_size_mapping`. -/
structure DmiRange where
  start : BitVec 64
  size : BitVec 64
  deriving DecidableEq

namespace DmiRange

def finish (range : DmiRange) : BitVec 64 := range.start + range.size

def contains (range : DmiRange) (addr : BitVec 64) : Bool :=
  range.start ≤ addr && addr < range.finish

/-- `assert((addr + sizeof(T)) <= end)` -/
def fits (range : DmiRange) (bytes : Nat) (addr : BitVec 64) : Bool :=
  addr + BitVec.ofNat 64 bytes ≤ range.finish

end DmiRange

/-- How the simulator was built and wired. -/
structure Config where
  /-- `#ifdef PIPELINE_TIMING` -/
  pipelineTiming : Bool
  softfloat : SoftFloat
  /-- whether `sys` is set, so that system calls are intercepted -/
  sys : Bool
  /-- whether the memory interface has an MMU -/
  mmu : Bool
  dmiRanges : List DmiRange
  /-- the range of an `InstrMemoryProxy`; without one, instructions are
  fetched through the memory interface -/
  instrMemoryProxy : Option DmiRange

/-! ## State -/

structure Hart where
  regs : BitVec 5 → BitVec 32 := fun _ => 0
  fpRegs : BitVec 5 → BitVec 64 := fun _ => 0
  pc : BitVec 32 := 0
  lastPc : BitVec 32 := 0
  shallExit : Bool := false
  ignoreWfi : Bool := false
  csrs : CsrTable
  prv : PrivilegeLevel := machineMode
  lrScCounter : Int := 0
  instr : BitVec 32 := 0
  op : Mapping := .undef
  status : CoreExecStatus := .runnable
  breakpoints : BitVec 32 → Bool := fun _ => false
  debugMode : Bool := false
  pipeline : HiFive1PipelineTiming := {}
  /-- `cycle_counter` in multiples of `cycle_time` -/
  cycleCounter : Nat := 0
  lastCycles : BitVec 64 := 0
  softfloatExceptionFlags : Fp.Flags := 0
  softfloatRoundingMode : Fp.RoundingMode := 0
  /-- `CombinedMemoryInterface::lr_addr` -/
  lrAddr : BitVec 64 := 0
  tlb : Mmu.Tlb := Mmu.flushTlb

/-- The state after construction and `ISS::init`. -/
def Hart.reset (hartId : BitVec 32) (useEBaseIsa : Bool)
    (entrypoint sp : BitVec 32) : Hart :=
  { csrs := CsrTable.reset hartId useEBaseIsa
    pc := entrypoint
    regs := fun r => if r = 2 then sp else 0 }

/-! ## Calls -/

/-- `external_interrupt_target` and `clint_interrupt_target`. -/
inductive InterruptEvent : Type
  | external (level : PrivilegeLevel) (pending : Bool)
  | timer (status : Bool)
  | software (status : Bool)
  deriving DecidableEq

/-- Who stores: an instruction, or the page walker setting `A` and `D`. -/
inductive StoreKind : Type
  | data
  | pte
  deriving DecidableEq

inductive Observation : Type
  /-- an AMO has taken the lock -/
  | amoBegins
  /-- an AMO has performed its store -/
  | amoEnds
  /-- a reservation is made -/
  | reserves (addr : BitVec 64)
  /-- a conditional store has passed its checks -/
  | conditionalPasses (addr : BitVec 64)
  /-- a conditional store reports success -/
  | conditionalSucceeds (addr : BitVec 64)
  /-- a trap was caught -/
  | trapCaught
  deriving DecidableEq

inductive Call : Type
  | read (bytes : Nat) (addr : BitVec 64)
  | write (kind : StoreKind) (bytes : Nat) (addr : BitVec 64)
      (data : BitVec (8 * bytes))
  | dmiLoad (range : DmiRange) (bytes : Nat) (addr : BitVec 64)
  | dmiStore (kind : StoreKind) (range : DmiRange) (bytes : Nat)
      (addr : BitVec 64) (data : BitVec (8 * bytes))
  | lock (hartId : BitVec 32)
  | unlock (hartId : BitVec 32)
  | isLocked (hartId : BitVec 32)
  | waitForAccessRights (hartId : BitVec 32)
  | updateAndGetMtime
  | executeSyscall (syscall a0 a1 a2 a3 : BitVec 32)
  | waitWfi
  | needSync (advance : BitVec 64)
  | sync
  | observe (observation : Observation)

/-- A bus transaction succeeds, answers with an error, or dies. -/
inductive BusReply (α : Type) : Type
  | ok (value : α) (interrupts : List InterruptEvent)
  | error (interrupts : List InterruptEvent)
  | fatal

/-- An emulated system call returns a value and may ask to exit, or dies. -/
inductive SyscallReply : Type
  | returns (value : BitVec 32) (shallExit : Bool)
  | fatal

abbrev Reply : Call → Type
  | .read bytes _ => BusReply (BitVec (8 * bytes))
  | .write _ _ _ _ => BusReply Unit
  | .dmiLoad _ bytes _ => BitVec (8 * bytes)
  | .dmiStore _ _ _ _ _ => Unit
  | .lock _ => List InterruptEvent
  | .unlock _ => Unit
  | .isLocked _ => Bool
  | .waitForAccessRights _ => List InterruptEvent
  | .updateAndGetMtime => BitVec 64
  | .executeSyscall _ _ _ _ _ => SyscallReply
  | .waitWfi => List InterruptEvent
  | .needSync _ => Bool
  | .sync => List InterruptEvent
  | .observe _ => Unit

/-- A statement of the simulator. -/
abbrev HartM : Type → Type :=
  Machine Reply Hart SimulationTrap Fatal

namespace Hart

/-- `get_hart_id` -/
def hartId (hart : Hart) : BitVec 32 := hart.csrs .mhartid

def setCsr (hart : Hart) (register : Csr.Register) (value : BitVec 32) :
    Hart :=
  { hart with csrs := hart.csrs.set register value }

section SetCsr

variable (hart : Hart) (register : Csr.Register) (value : BitVec 32)

@[simp]
theorem setCsr_csrs :
    (hart.setCsr register value).csrs = hart.csrs.set register value :=
  rfl

@[simp]
theorem setCsr_prv : (hart.setCsr register value).prv = hart.prv :=
  rfl

@[simp]
theorem setCsr_pc : (hart.setCsr register value).pc = hart.pc :=
  rfl

@[simp]
theorem setCsr_lastPc :
    (hart.setCsr register value).lastPc = hart.lastPc :=
  rfl

@[simp]
theorem setCsr_regs : (hart.setCsr register value).regs = hart.regs :=
  rfl

end SetCsr

def setCsrField (hart : Hart) (register : Csr.Register)
    (field : Bits.BitField 32) (value : BitVec field.len) : Hart :=
  { hart with csrs := hart.csrs.setField register field value }

/-- `csrs.misa.has_C_extension()` and its siblings. -/
def hasExtension (hart : Hart) (extension : BitVec 32) : Bool :=
  Csr.Misa.has (hart.csrs .misa) extension

/-- `pc_alignment_mask` -/
def pcAlignmentMask (hart : Hart) : BitVec 32 :=
  if hart.hasExtension Csr.Misa.c then ~~~0x1 else ~~~0x3

def sMode (hart : Hart) : Bool := hart.prv == supervisorMode

def uMode (hart : Hart) : Bool := hart.prv == userMode

/-- Set one interrupt bit of `mip`. -/
def setPending (hart : Hart) (field : Bits.BitField 32) (pending : Bool) :
    Hart :=
  hart.setCsrField .mip field (if pending then 1 else 0)

/-- `trigger_external_interrupt`, `clear_external_interrupt`,
`trigger_timer_interrupt` and `trigger_software_interrupt`; an external level
other than the three modes is ignored. -/
def interrupt (hart : Hart) : InterruptEvent → Hart
  | .external level pending =>
      if level = userMode then hart.setPending Csr.Mip.ueip pending
      else if level = supervisorMode then
        hart.setPending Csr.Mip.seip pending
      else if level = machineMode then hart.setPending Csr.Mip.meip pending
      else hart
  | .timer status => hart.setPending Csr.Mip.mtip status
  | .software status => hart.setPending Csr.Mip.msip status

/-- An interrupt touches `mip` and nothing else. -/
theorem interrupt_eq (hart : Hart) (event : InterruptEvent) :
    hart.interrupt event =
      hart.setCsr .mip ((hart.interrupt event).csrs .mip) := by
  have same : hart = hart.setCsr .mip (hart.csrs .mip) := by
    have table : hart.csrs = hart.csrs.set .mip (hart.csrs .mip) := by
      funext register
      unfold CsrTable.set
      split
      next equal => rw [equal]
      next => rfl
    rw [setCsr, ← table]
  cases event with
  | external level pending =>
      rw [interrupt]
      split
      · simp [setPending, setCsrField, setCsr, CsrTable.setField]
      split
      · simp [setPending, setCsrField, setCsr, CsrTable.setField]
      split
      · simp [setPending, setCsrField, setCsr, CsrTable.setField]
      · exact same
  | timer status =>
      simp [interrupt, setPending, setCsrField, setCsr, CsrTable.setField]
  | software status =>
      simp [interrupt, setPending, setCsrField, setCsr, CsrTable.setField]

@[simp]
theorem interrupt_pc (hart : Hart) (event : InterruptEvent) :
    (hart.interrupt event).pc = hart.pc := by
  rw [interrupt_eq, setCsr_pc]

@[simp]
theorem interrupt_regs (hart : Hart) (event : InterruptEvent) :
    (hart.interrupt event).regs = hart.regs := by
  rw [interrupt_eq, setCsr_regs]

end Hart

/-! ## Making calls -/

def call {α : Type} (question : Call)
    (receive : Reply question → α := by exact id) : HartM α :=
  Machine.request question receive

/-- The interrupt events that arrived while the surroundings ran. -/
def deliver (interrupts : List InterruptEvent) : HartM Unit :=
  Machine.modifies fun hart => interrupts.foldl Hart.interrupt hart

def observe (observation : Observation) : HartM Unit :=
  call (.observe observation)

end Rv32

end RiscvVp
