import RiscvVp.Rv32.Hart

/-!
# The memory interface

`CombinedMemoryInterface`: raw accesses to physical addresses, translated
accesses, instruction fetch, and the atomic operations built on the bus lock.
Every raw store ends by giving up the lock, whoever asked for the store; the
lock of a load-reserved or of an AMO is kept until such a store.
-/

namespace RiscvVp

namespace Rv32

open Interaction

namespace Memory

variable (cfg : Config)

/-! ## The bus lock -/

def lock : HartM Unit := do
  let hartId ← Machine.reads Hart.hartId
  let interrupts ← call (.lock hartId)
  deliver interrupts

def isLocked : HartM Bool := do
  let hartId ← Machine.reads Hart.hartId
  call (.isLocked hartId)

def waitForAccessRights : HartM Unit := do
  let hartId ← Machine.reads Hart.hartId
  let interrupts ← call (.waitForAccessRights hartId)
  deliver interrupts

def atomicUnlock : HartM Unit := do
  let hartId ← Machine.reads Hart.hartId
  call (.unlock hartId)

/-! ## Raw accesses -/

/-- A read through `_do_transaction`; a bus error is a page fault at the
physical address. -/
def readTransaction (bytes : Nat) (addr : BitVec 64) :
    HartM (BitVec (8 * bytes)) := do
  let reply : BusReply _ ← call (.read bytes addr)
  match reply with
  | .ok value interrupts =>
      deliver interrupts
      pure value
  | .error interrupts =>
      deliver interrupts
      Machine.raise ⟨.loadPageFault, addr⟩
  | .fatal => Machine.abort .platform

/-- A write through `_do_transaction`. -/
def writeTransaction (kind : StoreKind) (bytes : Nat) (addr : BitVec 64)
    (data : BitVec (8 * bytes)) : HartM Unit := do
  let reply : BusReply Unit ← call (.write kind bytes addr data)
  match reply with
  | .ok _ interrupts => deliver interrupts
  | .error interrupts =>
      deliver interrupts
      Machine.raise ⟨.storeAmoPageFault, addr⟩
  | .fatal => Machine.abort .platform

/-- `MemoryDMI::load` -/
def dmiLoad (range : DmiRange) (bytes : Nat) (addr : BitVec 64) :
    HartM (BitVec (8 * bytes)) := do
  Machine.assert (range.contains addr && range.fits bytes addr) .dmiRange
  call (.dmiLoad range bytes addr)

/-- `MemoryDMI::store` -/
def dmiStore (kind : StoreKind) (range : DmiRange) (bytes : Nat)
    (addr : BitVec 64) (data : BitVec (8 * bytes)) : HartM Unit := do
  Machine.assert (range.contains addr && range.fits bytes addr) .dmiRange
  call (.dmiStore kind range bytes addr data)

/-- `_raw_load_data`: the first DMI range that contains the address, else the
bus. -/
def rawLoadData (bytes : Nat) (addr : BitVec 64) :
    HartM (BitVec (8 * bytes)) := do
  waitForAccessRights
  match cfg.dmiRanges.find? (·.contains addr) with
  | some range => dmiLoad range bytes addr
  | none => readTransaction bytes addr

/-- The loop over the DMI ranges, which does not stop at the first. -/
def dmiStores (kind : StoreKind) (bytes : Nat) (addr : BitVec 64)
    (data : BitVec (8 * bytes)) : List DmiRange → HartM Unit
  | [] => pure ()
  | range :: rest => do
      dmiStore kind range bytes addr data
      dmiStores kind bytes addr data rest

/-- `_raw_store_data` -/
def rawStoreData (kind : StoreKind) (bytes : Nat) (addr : BitVec 64)
    (data : BitVec (8 * bytes)) : HartM Unit := do
  waitForAccessRights
  let ranges := cfg.dmiRanges.filter (·.contains addr)
  dmiStores kind bytes addr data ranges
  if ranges.isEmpty then writeTransaction kind bytes addr data
  atomicUnlock

/-! ## Translated accesses -/

/-- What the MMU reads of this hart. -/
def mmuCore (hart : Hart) : Mmu.Core where
  xlen := 32
  satpMode := (Csr.Satp.mode.get (hart.csrs .satp)).toNat
  satpPpn := (Csr.Satp.ppn.get (hart.csrs .satp)).setWidth 64
  prv := hart.prv
  mprv := Csr.Mstatus.mprv.isSet (hart.csrs .mstatus)
  mpp := (Csr.Mstatus.mpp.get (hart.csrs .mstatus)).setWidth 32
  sum := Csr.Mstatus.sum.isSet (hart.csrs .mstatus)
  mxr := Csr.Mstatus.mxr.isSet (hart.csrs .mstatus)
  pageFaultOnAD := false

/-- `mmu_load_pte32`, `mmu_load_pte64` and `mmu_store_pte32`. -/
def answerMmu : (question : Mmu.Call) → HartM (Mmu.Reply question)
  | .loadPte32 addr => do
      let value ← rawLoadData cfg 4 addr
      pure (value.setWidth 64)
  | .loadPte64 addr => do
      let value ← rawLoadData cfg 8 addr
      pure (value.setWidth 64)
  | .storePte32 addr value => rawStoreData cfg .pte 4 addr value

/-- Run the MMU of this hart. -/
def runMmu {α : Type} (machine : Mmu.MmuM α) : HartM α :=
  Machine.embed (answerMmu cfg) Hart.tlb
    (fun tlb hart => { hart with tlb := tlb }) machine

/-- `v2p` -/
def v2p (vaddr : BitVec 64) (type : MemoryAccessType) :
    HartM (BitVec 64) :=
  if cfg.mmu then do
    let core ← Machine.reads mmuCore
    runMmu cfg (Mmu.translateVirtualToPhysicalAddr core vaddr type)
  else pure vaddr

/-- `_load_data` -/
def loadData (bytes : Nat) (addr : BitVec 64) :
    HartM (BitVec (8 * bytes)) := do
  let paddr ← v2p cfg addr .load
  rawLoadData cfg bytes paddr

/-- `_store_data` -/
def storeData (bytes : Nat) (addr : BitVec 64)
    (data : BitVec (8 * bytes)) : HartM Unit := do
  let paddr ← v2p cfg addr .store
  rawStoreData cfg .data bytes paddr data

/-- `load_word` -/
def loadWord (addr : BitVec 64) : HartM (BitVec 32) := do
  let value ← loadData cfg 4 addr
  pure (value.setWidth 32)

/-- `load_instr`, of the proxy or of the memory interface. -/
def loadInstr (addr : BitVec 64) : HartM (BitVec 32) :=
  match cfg.instrMemoryProxy with
  | some range => do
      let value ← dmiLoad range 4 addr
      pure (value.setWidth 32)
  | none => do
      let paddr ← v2p cfg addr .fetch
      let value ← rawLoadData cfg 4 paddr
      pure (value.setWidth 32)

/-- `flush_tlb`, through a pointer that may be null. -/
def flushTlb : HartM Unit :=
  if cfg.mmu then
    Machine.modifies fun hart => { hart with tlb := Mmu.flushTlb }
  else Machine.abort .nullMmu

/-! ## Atomic operations -/

def atomicLoadWord (addr : BitVec 64) : HartM (BitVec 32) := do
  lock
  observe .amoBegins
  loadWord cfg addr

def atomicStoreWord (addr : BitVec 64) (value : BitVec 32) : HartM Unit := do
  let locked ← isLocked
  Machine.assert locked .amoNotLocked
  storeData cfg 4 addr value
  observe .amoEnds

def atomicLoadReservedWord (addr : BitVec 64) : HartM (BitVec 32) := do
  lock
  Machine.modifies fun hart => { hart with lrAddr := addr }
  observe (.reserves addr)
  loadWord cfg addr

def atomicStoreConditionalWord (addr : BitVec 64) (value : BitVec 32) :
    HartM Bool := do
  let locked ← isLocked
  if locked then do
    let lrAddr ← Machine.reads Hart.lrAddr
    if addr = lrAddr then do
      observe (.conditionalPasses addr)
      storeData cfg 4 addr value
      observe (.conditionalSucceeds addr)
      pure true
    else do
      atomicUnlock
      pure false
  else pure false

end Memory

end Rv32

end RiscvVp
