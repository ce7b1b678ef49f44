import RiscvVp.Rv32.Hart

/-!
# Reading and writing control and status registers

`getCsrValue` and `setCsrValue` carry out what `readAccess` and `writeAccess`
say about an address.  Both may raise an illegal instruction trap, and the
former may ask the clock for the time.
-/

namespace RiscvVp

namespace Rv32

open Bits Csr Interaction

/-- `RAISE_ILLEGAL_INSTRUCTION` -/
def raiseIllegalInstruction {α : Type} : HartM α := do
  let instr ← Machine.reads Hart.instr
  Machine.raise ⟨.illegalInstr, instr.setWidth 64⟩

/-- `csr_readonly`: the upper two bits of a read-only address are set. -/
def isReadOnly (addr : BitVec 32) : Bool :=
  (0xC00 &&& addr) >>> 10 == 3

/-- Whether an access is invalid, once the floating-point registers have been
found present. -/
def invalidCsrAccess (hart : Hart) (csrAddr : BitVec 32) (isWrite : Bool) :
    Bool :=
  let csrPrv : PrivilegeLevel := (0x300 &&& csrAddr) >>> 8
  let csrReadonly := isReadOnly csrAddr
  let sInvalid := csrPrv == supervisorMode && !hart.hasExtension Misa.s
  let uInvalid := csrPrv == userMode && !hart.hasExtension Misa.u
  (isWrite && csrReadonly) || hart.prv < csrPrv || sInvalid || uInvalid

/-- `FFLAGS_ADDR`, `FRM_ADDR` and `FCSR_ADDR` -/
def isFloatCsr (csrAddr : BitVec 32) : Bool :=
  csrAddr == 0x001 || csrAddr == 0x002 || csrAddr == 0x003

def isInvalidCsrAccess (csrAddr : BitVec 32) (isWrite : Bool) :
    HartM Bool := do
  let hart ← Machine.reads id
  if isFloatCsr csrAddr && !hart.hasExtension Misa.f then
    raiseIllegalInstruction
  pure (invalidCsrAccess hart csrAddr isWrite)

/-- The counters that `mcounteren` and `scounteren` guard. -/
def isGuardedCounter (addr : BitVec 32) : Bool :=
  (0xC00 ≤ addr && addr ≤ 0xC1F) || (0xC80 ≤ addr && addr ≤ 0xC9F)

/-- Whether the mode may read a guarded counter. -/
def counterReadable (hart : Hart) (addr : BitVec 32) : Bool :=
  let cnt := (addr &&& 0x1F).toNat
  !(hart.sMode && !(hart.csrs .mcounteren).getLsbD cnt) &&
    !(hart.uMode && (!(hart.csrs .mcounteren).getLsbD cnt ||
      !(hart.csrs .scounteren).getLsbD cnt))

def validateCsrCounterReadAccessRights (addr : BitVec 32) : HartM Unit := do
  let hart ← Machine.reads id
  if isGuardedCounter addr && !counterReadable hart addr then
    raiseIllegalInstruction

/-- `is_valid_csr32_addr` and `default_read32` -/
def defaultRead32 (addr : BitVec 32) : HartM (BitVec 32) :=
  match registerMapping addr with
  | some register => Machine.reads fun hart => hart.csrs register
  | none => raiseIllegalInstruction

/-- What `mcycle` counts: the cycles of the pipeline model, or those of the
instruction cycle table. -/
def currentCycles (cfg : Config) (hart : Hart) : BitVec 64 :=
  if cfg.pipelineTiming then hart.pipeline.numTotalCycles
  else BitVec.ofNat 64 hart.cycleCounter

def getCsrValue (cfg : Config) (addr : BitVec 32) :
    HartM (BitVec 32) := do
  validateCsrCounterReadAccessRights addr
  match readAccess addr with
  | .time high => do
      let mtime ← call .updateAndGetMtime
      Machine.modifies fun hart =>
        { hart with csrs := hart.csrs.set64 .time .timeh mtime }
      Machine.reads fun hart => hart.csrs (if high then .timeh else .time)
  | .cycle high => do
      Machine.modifies fun hart =>
        { hart with
          csrs := hart.csrs.set64 .cycle .cycleh (currentCycles cfg hart) }
      Machine.reads fun hart => hart.csrs (if high then .cycleh else .cycle)
  | .constant value => pure value
  | .masked register mask =>
      Machine.reads fun hart => hart.csrs register &&& mask
  | .field register field =>
      Machine.reads fun hart => (field.get (hart.csrs register)).setWidth 32
  | .satp => do
      let hart ← Machine.reads id
      if Mstatus.tvm.isSet (hart.csrs .mstatus) then raiseIllegalInstruction
      defaultRead32 addr
  | .default => defaultRead32 addr

/-- `write(x, mask)` -/
def writeCsr (register : Register) (mask value : BitVec 32) : HartM Unit :=
  Machine.modifies fun hart =>
    hart.setCsr register (writeMasked (hart.csrs register) value mask)

def setCsrValue (addr value : BitVec 32) : HartM Unit :=
  match writeAccess addr with
  | .ignored => pure ()
  | .masked register mask => writeCsr register mask value
  | .exceptionPc register => do
      let mask ← Machine.reads Hart.pcAlignmentMask
      writeCsr register mask value
  | .field register field =>
      Machine.modifies fun hart =>
        hart.setCsrField register field (value.setWidth field.len)
  | .satp => do
      let hart ← Machine.reads id
      if Mstatus.tvm.isSet (hart.csrs .mstatus) then raiseIllegalInstruction
      writeCsr .satp satpMask value
  | .default =>
      match registerMapping addr with
      | some register => Machine.modifies fun hart => hart.setCsr register value
      | none => raiseIllegalInstruction

end Rv32

end RiscvVp
