import RiscvVp.Bits.BitField
import RiscvVp.Core.Instruction
import RiscvVp.Core.Opcode
import RiscvVp.Rv32.Hart

/-!
# The memory interface of rv64

The 64-bit core has a memory interface of its own.  It reaches the bus and the
bus lock through the same calls as the 32-bit core, translates with the same
MMU, and differs in the widths it offers.  The state is what its loads, stores
and atomic operations use of the core.
-/

namespace RiscvVp

namespace Rv64

open Bits Interaction
open Rv32 (BusReply Call DmiRange InterruptEvent Reply StoreKind)

/-! ## State -/

structure Config where
  dmiRanges : List DmiRange

structure Hart where
  regs : BitVec 5 → BitVec 64
  mhartid : BitVec 64
  mstatus : BitVec 64
  satp : BitVec 64
  prv : PrivilegeLevel
  tlb : Mmu.Tlb

namespace Mstatus

def mpp : BitField 64 := ⟨11, 2, by decide⟩

def mprv : BitField 64 := ⟨17, 1, by decide⟩

def sum : BitField 64 := ⟨18, 1, by decide⟩

def mxr : BitField 64 := ⟨19, 1, by decide⟩

end Mstatus

namespace Satp

def ppn : BitField 64 := ⟨0, 44, by decide⟩

def mode : BitField 64 := ⟨60, 4, by decide⟩

end Satp

namespace Hart

/-- The argument of the bus lock, an `unsigned`. -/
def hartId (hart : Hart) : BitVec 32 := hart.mhartid.setWidth 32

def setReg (hart : Hart) (regIdx : BitVec 5) (value : BitVec 64) : Hart :=
  { hart with
    regs := fun r => if r = regIdx then value else hart.regs r }

end Hart

abbrev HartM : Type → Type :=
  Machine Reply Hart SimulationTrap Fatal

def call {α : Type} (question : Call)
    (receive : Reply question → α := by exact id) : HartM α :=
  Machine.request question receive

namespace Memory

/-! ## The bus lock

The interrupts that arrive meanwhile change `mip`, which nothing here reads. -/

def lock : HartM Unit := do
  let hartId ← Machine.reads Hart.hartId
  let _ : List InterruptEvent ← call (.lock hartId)

def isLocked : HartM Bool := do
  let hartId ← Machine.reads Hart.hartId
  call (.isLocked hartId)

def waitForAccessRights : HartM Unit := do
  let hartId ← Machine.reads Hart.hartId
  let _ : List InterruptEvent ← call (.waitForAccessRights hartId)

def atomicUnlock : HartM Unit := do
  let hartId ← Machine.reads Hart.hartId
  call (.unlock hartId)

/-! ## Raw accesses -/

/-- A read through `_do_transaction`. -/
def readTransaction (bytes : Nat) (addr : BitVec 64) :
    HartM (BitVec (8 * bytes)) := do
  let reply : BusReply _ ← call (.read bytes addr)
  match reply with
  | .ok value _ => pure value
  | .error _ => Machine.raise ⟨.loadPageFault, addr⟩
  | .fatal => Machine.abort .platform

/-- A write through `_do_transaction`. -/
def writeTransaction (kind : StoreKind) (bytes : Nat) (addr : BitVec 64)
    (data : BitVec (8 * bytes)) : HartM Unit := do
  let reply : BusReply Unit ← call (.write kind bytes addr data)
  match reply with
  | .ok _ _ => pure ()
  | .error _ => Machine.raise ⟨.storeAmoPageFault, addr⟩
  | .fatal => Machine.abort .platform

/-- `*(e.get_mem_ptr_to_global_addr<T>(addr))` -/
def dmiLoad (range : DmiRange) (bytes : Nat) (addr : BitVec 64) :
    HartM (BitVec (8 * bytes)) := do
  Machine.assert (range.contains addr && range.fits bytes addr) .dmiRange
  call (.dmiLoad range bytes addr)

/-- `*(e.get_mem_ptr_to_global_addr<T>(addr)) = value` -/
def dmiStore (kind : StoreKind) (range : DmiRange) (bytes : Nat)
    (addr : BitVec 64) (data : BitVec (8 * bytes)) : HartM Unit := do
  Machine.assert (range.contains addr && range.fits bytes addr) .dmiRange
  call (.dmiStore kind range bytes addr data)

variable (cfg : Config)

/-- `_raw_load_data` -/
def rawLoadData (bytes : Nat) (addr : BitVec 64) :
    HartM (BitVec (8 * bytes)) := do
  waitForAccessRights
  match cfg.dmiRanges.find? (·.contains addr) with
  | some range => dmiLoad range bytes addr
  | none => readTransaction bytes addr

/-- The loop over the DMI ranges, which does not stop at the first. -/
def dmiStores (kind : StoreKind) (bytes : Nat) (addr : BitVec 64)
    (data : BitVec (8 * bytes)) : List DmiRange → HartM Unit
  | [] => pure ()
  | range :: rest => do
      dmiStore kind range bytes addr data
      dmiStores kind bytes addr data rest

/-- `_raw_store_data` -/
def rawStoreData (kind : StoreKind) (bytes : Nat) (addr : BitVec 64)
    (data : BitVec (8 * bytes)) : HartM Unit := do
  waitForAccessRights
  let ranges := cfg.dmiRanges.filter (·.contains addr)
  dmiStores kind bytes addr data ranges
  if ranges.isEmpty then writeTransaction kind bytes addr data
  atomicUnlock

/-! ## Translated accesses -/

/-- What the MMU reads of this hart. -/
def mmuCore (hart : Hart) : Mmu.Core where
  xlen := 64
  satpMode := (Satp.mode.get hart.satp).toNat
  satpPpn := (Satp.ppn.get hart.satp).setWidth 64
  prv := hart.prv
  mprv := Mstatus.mprv.isSet hart.mstatus
  mpp := (Mstatus.mpp.get hart.mstatus).setWidth 32
  sum := Mstatus.sum.isSet hart.mstatus
  mxr := Mstatus.mxr.isSet hart.mstatus
  pageFaultOnAD := false

/-- `mmu_load_pte32`, `mmu_load_pte64` and `mmu_store_pte32`. -/
def answerMmu : (question : Mmu.Call) → HartM (Mmu.Reply question)
  | .loadPte32 addr => do
      let value ← rawLoadData cfg 4 addr
      pure (value.setWidth 64)
  | .loadPte64 addr => do
      let value ← rawLoadData cfg 8 addr
      pure (value.setWidth 64)
  | .storePte32 addr value => rawStoreData cfg .pte 4 addr value

/-- `v2p` -/
def v2p (vaddr : BitVec 64) (type : MemoryAccessType) :
    HartM (BitVec 64) := do
  let core ← Machine.reads mmuCore
  Machine.embed (answerMmu cfg) Hart.tlb
    (fun tlb hart => { hart with tlb := tlb })
    (Mmu.translateVirtualToPhysicalAddr core vaddr type)

/-- `_load_data` -/
def loadData (bytes : Nat) (addr : BitVec 64) :
    HartM (BitVec (8 * bytes)) := do
  let paddr ← v2p cfg addr .load
  rawLoadData cfg bytes paddr

/-- `_store_data` -/
def storeData (bytes : Nat) (addr : BitVec 64)
    (data : BitVec (8 * bytes)) : HartM Unit := do
  let paddr ← v2p cfg addr .store
  rawStoreData cfg .data bytes paddr data

/-! ## Atomic operations -/

/-- `_atomic_load_data` -/
def atomicLoadData (bytes : Nat) (addr : BitVec 64) :
    HartM (BitVec (8 * bytes)) := do
  lock
  loadData cfg bytes addr

/-- `_atomic_store_data` -/
def atomicStoreData (bytes : Nat) (addr : BitVec 64)
    (value : BitVec (8 * bytes)) : HartM Unit := do
  let locked ← isLocked
  Machine.assert locked .amoNotLocked
  storeData cfg bytes addr value

end Memory

/-! ## Atomic memory operations -/

/-- `trap_check_addr_alignment<Alignment, isLoad>` -/
def trapCheckAddrAlignment (alignment : Nat) (isLoad : Bool)
    (addr : BitVec 64) : HartM Unit :=
  if addr.toNat % alignment ≠ 0 then
    Machine.raise
      ⟨if isLoad then .loadAddrMisaligned else .storeAmoAddrMisaligned, addr⟩
  else pure ()

namespace Exec

variable (cfg : Config) (instr : Instruction)

/-- `execute_amo_w` and `execute_amo_d`, which differ in the width. -/
def executeAmo (bytes : Nat)
    (operation : BitVec (8 * bytes) → BitVec (8 * bytes) →
      BitVec (8 * bytes)) : HartM Unit := do
  let addr ← Machine.reads fun hart : Hart => hart.regs instr.rs1
  trapCheckAddrAlignment bytes false addr
  let data ← Machine.catchTrap (Memory.atomicLoadData cfg bytes addr) fun e =>
    Machine.raise <|
      if e.reason = .loadAccessFault then
        { e with reason := .storeAmoAccessFault }
      else e
  let operand ← Machine.reads fun hart : Hart => hart.regs instr.rs2
  Memory.atomicStoreData cfg bytes addr
    (operation data (operand.setWidth (8 * bytes)))
  Machine.modifies fun hart => hart.setReg instr.rd (data.signExtend 64)

/-! ### The operations, of both widths -/

def amoswap (bytes : Nat) : HartM Unit :=
  executeAmo cfg instr bytes fun _ b => b

def amoadd (bytes : Nat) : HartM Unit :=
  executeAmo cfg instr bytes fun a b => a + b

def amoxor (bytes : Nat) : HartM Unit :=
  executeAmo cfg instr bytes fun a b => a ^^^ b

def amoand (bytes : Nat) : HartM Unit :=
  executeAmo cfg instr bytes fun a b => a &&& b

def amoor (bytes : Nat) : HartM Unit :=
  executeAmo cfg instr bytes fun a b => a ||| b

def amomin (bytes : Nat) : HartM Unit :=
  executeAmo cfg instr bytes fun a b => if b.slt a then b else a

def amominu (bytes : Nat) : HartM Unit :=
  executeAmo cfg instr bytes fun a b => if b.ult a then b else a

def amomax (bytes : Nat) : HartM Unit :=
  executeAmo cfg instr bytes fun a b => if a.slt b then b else a

def amomaxu (bytes : Nat) : HartM Unit :=
  executeAmo cfg instr bytes fun a b => if a.ult b then b else a

/-- The cases of the big switch for these instructions. -/
def amo : Mapping → Option (HartM Unit)
  | .amoswapW => some (amoswap cfg instr 4)
  | .amoaddW => some (amoadd cfg instr 4)
  | .amoxorW => some (amoxor cfg instr 4)
  | .amoandW => some (amoand cfg instr 4)
  | .amoorW => some (amoor cfg instr 4)
  | .amominW => some (amomin cfg instr 4)
  | .amominuW => some (amominu cfg instr 4)
  | .amomaxW => some (amomax cfg instr 4)
  | .amomaxuW => some (amomaxu cfg instr 4)
  | .amoswapD => some (amoswap cfg instr 8)
  | .amoaddD => some (amoadd cfg instr 8)
  | .amoxorD => some (amoxor cfg instr 8)
  | .amoandD => some (amoand cfg instr 8)
  | .amoorD => some (amoor cfg instr 8)
  | .amominD => some (amomin cfg instr 8)
  | .amominuD => some (amominu cfg instr 8)
  | .amomaxD => some (amomax cfg instr 8)
  | .amomaxuD => some (amomaxu cfg instr 8)
  | _ => none

end Exec

end Rv64

end RiscvVp
