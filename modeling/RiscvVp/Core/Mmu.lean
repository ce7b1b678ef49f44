import RiscvVp.Core.Trap
import RiscvVp.Interaction.Machine

/-!
# The memory management unit

`translateVirtualToPhysicalAddr` follows the generic MMU: a bare or
machine-mode access is not translated, a cached translation is used when the
virtual page matches, and otherwise the page tables are walked and the result
is cached.

The MMU reaches memory through three operations only, so it is a program over
those.  What it reads of the core (`satp`, the privilege level and five status
bits) is collected in `Core`, since nothing changes it during one translation.
-/

namespace RiscvVp

namespace Mmu

open Interaction

/-! ## Page table entries -/

def pgShift : Nat := 12

/-- `PGMASK` is an `unsigned`, so its complement has 32 bits and masks the
upper half of a 64-bit address away. -/
def pgMask : BitVec 32 := 0xfff

def ptePpnShift : Nat := 10

/-- `pte_t` -/
abbrev Pte : Type := BitVec 64

namespace Pte

def v (pte : Pte) : Bool := pte.getLsbD 0

def r (pte : Pte) : Bool := pte.getLsbD 1

def w (pte : Pte) : Bool := pte.getLsbD 2

def x (pte : Pte) : Bool := pte.getLsbD 3

def u (pte : Pte) : Bool := pte.getLsbD 4

def ppn (pte : Pte) : BitVec 64 := BitVec.ushiftRight pte ptePpnShift

/-- The flags an access of this type wants to find set. -/
def accessedDirty (type : MemoryAccessType) : BitVec 64 :=
  (1 <<< 6) ||| (if type = .store then 1 <<< 7 else 0)

end Pte

/-! ## What the MMU reads of the core -/

structure Core where
  xlen : Nat
  satpMode : Nat
  satpPpn : BitVec 64
  prv : PrivilegeLevel
  mprv : Bool
  mpp : PrivilegeLevel
  sum : Bool
  mxr : Bool
  /-- `page_fault_on_AD`, a field of the MMU that is never assigned -/
  pageFaultOnAD : Bool

/-- `vm_info` -/
structure VmInfo where
  levels : Nat
  idxbits : Nat
  ptesize : Nat
  ptbase : BitVec 64
  deriving DecidableEq

/-- The modes of `decode_vm_info`; anything else is thrown out. -/
def decodeVmInfo (core : Core) : Option VmInfo :=
  let ptbase := core.satpPpn <<< pgShift
  match core.satpMode with
  | 1 => some ⟨2, 10, 4, ptbase⟩
  | 8 => some ⟨3, 9, 8, ptbase⟩
  | 9 => some ⟨4, 9, 8, ptbase⟩
  | 10 => some ⟨5, 9, 8, ptbase⟩
  | 11 => some ⟨6, 9, 8, ptbase⟩
  | _ => none

/-- `check_vaddr_extension`.  For six levels the source shifts by a negative
amount, which has no meaning; here the mask is empty. -/
def checkVaddrExtension (core : Core) (vaddr : BitVec 64) (vm : VmInfo) :
    Bool :=
  let highbit := vm.idxbits * vm.levels + pgShift - 1
  let extMask : BitVec 64 := (1 <<< (core.xlen - highbit)) - 1
  let bits := (vaddr >>> highbit) &&& extMask
  bits == 0 || bits == extMask

/-! ## Memory operations -/

inductive Call : Type
  | loadPte32 (addr : BitVec 64)
  | loadPte64 (addr : BitVec 64)
  | storePte32 (addr : BitVec 64) (value : BitVec 32)

/-- Both loads widen to 64 bits. -/
abbrev Reply : Call → Type
  | .loadPte32 _ => BitVec 64
  | .loadPte64 _ => BitVec 64
  | .storePte32 _ _ => Unit

/-! ## The translation lookaside buffer -/

structure TlbEntry where
  ppn : BitVec 64 := -1
  vpn : BitVec 64 := -1
  deriving DecidableEq

/-- `tlb[mode][type][idx]`, with the supervisor's half first. -/
abbrev Tlb : Type := Bool → MemoryAccessType → BitVec 8 → TlbEntry

/-- `flush_tlb` -/
def flushTlb : Tlb := fun _ _ _ => {}

def Tlb.update (tlb : Tlb) (supervisor : Bool) (type : MemoryAccessType)
    (idx : BitVec 8) (entry : TlbEntry) : Tlb :=
  fun supervisor' type' idx' =>
    if supervisor' = supervisor ∧ type' = type ∧ idx' = idx then entry
    else tlb supervisor' type' idx'

abbrev MmuM : Type → Type :=
  Machine Reply Tlb SimulationTrap Fatal

/-! ## The walk -/

/-- What the checks of one round decide about an entry. -/
inductive Verdict : Type
  | fault
  | pointer
  | leaf
  deriving DecidableEq

/-- The checks of one round of the loop, in their order.  A pointer continues
the loop and a fault breaks out of it. -/
def checkPte (core : Core) (type : MemoryAccessType) (sMode : Bool)
    (ptshift : Nat) (pte : Pte) : Verdict :=
  if !pte.v || (!pte.r && pte.w) then .fault
  else if !pte.r && !pte.x then .pointer
  else if type = .fetch ∧ !pte.x then .fault
  else if type = .load ∧ !pte.r ∧ !(core.mxr && pte.x) then .fault
  else if type = .store ∧ !(pte.r && pte.w) then .fault
  else if pte.u ∧ sMode ∧ (type = .fetch ∨ !core.sum) then .fault
  else if ¬ pte.u ∧ ¬ sMode then .fault
  -- a superpage whose lower frame bits are not zero
  else if pte.ppn &&& ((1 <<< ptshift) - 1) ≠ 0 then .fault
  else .leaf

/-- The page fault that follows the loop. -/
def pageFault (type : MemoryAccessType) (vaddr : BitVec 64) :
    SimulationTrap :=
  match type with
  | .fetch => ⟨.instrPageFault, vaddr⟩
  | .load => ⟨.loadPageFault, vaddr⟩
  | .store => ⟨.storeAmoPageFault, vaddr⟩

/-- The physical address that a leaf at this level gives. -/
def leafAddress (vaddr : BitVec 64) (ptshift : Nat) (pte : Pte) :
    BitVec 64 :=
  let mask : BitVec 64 := (1 <<< ptshift) - 1
  let vpn := vaddr >>> pgShift
  let pgoff := vaddr &&& 0xfff
  (((pte.ppn &&& ~~~mask) ||| (vpn &&& mask)) <<< pgShift) ||| pgoff

/-- Where the entry of this level is. -/
def pteAddress (vm : VmInfo) (vaddr : BitVec 64) (level : Nat)
    (base : BitVec 64) : BitVec 64 :=
  let vpnField :=
    (vaddr >>> (pgShift + level * vm.idxbits)) &&& ((1 <<< vm.idxbits) - 1)
  base + vpnField * BitVec.ofNat 64 vm.ptesize

def loadPte (vm : VmInfo) (addr : BitVec 64) : MmuM Pte :=
  if vm.ptesize = 4 then Machine.request (Call.loadPte32 addr)
  else Machine.request (Call.loadPte64 addr)

/-- The loop of `walk`, with the levels still to go. -/
def walkLevels (core : Core) (vm : VmInfo) (vaddr : BitVec 64)
    (type : MemoryAccessType) (sMode : Bool) :
    Nat → BitVec 64 → MmuM (BitVec 64)
  | 0, _ => Machine.raise (pageFault type vaddr)
  | level + 1, base => do
      let ptshift := level * vm.idxbits
      let ptePaddr := pteAddress vm vaddr level base
      let pte ← loadPte vm ptePaddr
      match checkPte core type sMode ptshift pte with
      | .fault => Machine.raise (pageFault type vaddr)
      | .pointer =>
          walkLevels core vm vaddr type sMode level (pte.ppn <<< pgShift)
      | .leaf =>
          let ad := Pte.accessedDirty type
          if pte &&& ad ≠ ad then
            if core.pageFaultOnAD then Machine.raise (pageFault type vaddr)
            else do
              let _ ← Machine.request
                (Call.storePte32 ptePaddr ((pte ||| ad).setWidth 32))
              pure (leafAddress vaddr ptshift pte)
          else pure (leafAddress vaddr ptshift pte)

/-- `walk` -/
def walk (core : Core) (vaddr : BitVec 64) (type : MemoryAccessType)
    (mode : PrivilegeLevel) : MmuM (BitVec 64) :=
  let sMode := mode == supervisorMode
  match decodeVmInfo core with
  | none => Machine.abort .unknownSatpMode
  | some vm =>
      -- a badly extended address skips the loop and faults
      let levels := if checkVaddrExtension core vaddr vm then vm.levels else 0
      walkLevels core vm vaddr type sMode levels vm.ptbase

/-! ## Translation -/

/-- The privilege level that an access of this type is checked against. -/
def effectiveMode (core : Core) (type : MemoryAccessType) : PrivilegeLevel :=
  if type ≠ .fetch ∧ core.mprv then core.mpp else core.prv

/-- `translate_virtual_to_physical_addr` -/
def translateVirtualToPhysicalAddr (core : Core) (vaddr : BitVec 64)
    (type : MemoryAccessType) : MmuM (BitVec 64) :=
  if core.satpMode = 0 then pure vaddr
  else
    let mode := effectiveMode core type
    if mode = machineMode then pure vaddr
    else do
      Machine.assert (mode == userMode || mode == supervisorMode) .mmuMode
      let vpn := vaddr >>> pgShift
      let idx := vpn.setWidth 8
      let sMode := mode == supervisorMode
      let x ← Machine.reads fun tlb : Tlb => tlb sMode type idx
      if x.vpn = vpn then
        pure (x.ppn ||| (vaddr &&& pgMask.setWidth 64))
      else do
        let paddr ← walk core vaddr type mode
        Machine.modifies fun tlb : Tlb =>
          tlb.update sMode type idx
            { ppn := paddr &&& (~~~pgMask).setWidth 64, vpn := vpn }
        pure paddr

end Mmu

end RiscvVp
