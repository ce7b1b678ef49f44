import RiscvVp.Core.PageWalk
import RiscvVp.Interaction.Attempt

/-!
# What a walk finds

Which entries a walk reads depends on the tables and on the page alone.  The
access, the mode and the status bits are used at the leaf that it finds.  So a
walk is a lookup that knows nothing of them, followed by a conclusion about the
entry that was found.
-/

namespace RiscvVp

namespace Mmu

open Interaction

/-! ## The memory behind the MMU -/

/-- The requests that the bus refuses, with the trap of the failed
transaction. -/
abbrev Refusals : Type := Call → Option SimulationTrap

/-- A byte memory that refuses some requests. -/
def respond (refusals : Refusals) (request : Call) (bytes : Paging.Memory) :
    Except SimulationTrap (Reply request × Paging.Memory) :=
  match refusals request with
  | some cause => .error cause
  | none =>
      let answered := serve request ⟨bytes, []⟩
      .ok (answered.1, answered.2.bytes)

namespace VmInfo

variable (vm : VmInfo)

def entryBytes : Nat := if vm.ptesize = 4 then 4 else 8

def loadCall (address : BitVec 64) : Call :=
  if vm.ptesize = 4 then .loadPte32 address else .loadPte64 address

/-- The entry at this address. -/
def entry (bytes : Paging.Memory) (address : BitVec 64) : Pte :=
  BitVec.ofNat 64 (Paging.entryAt bytes address.toNat vm.entryBytes)

end VmInfo

/-- A load is refused, or gives the entry. -/
theorem loadPte_attempt (refusals : Refusals) (vm : VmInfo)
    (address : BitVec 64) (tlb : Tlb) (bytes : Paging.Memory)
    (continuation : Pte → MmuM (BitVec 64)) :
    ((loadPte vm address >>= continuation) tlb).attempt
        (fun cause => .trap cause tlb) (respond refusals) bytes =
      match refusals (vm.loadCall address) with
      | some cause => (.trap cause tlb, bytes)
      | none =>
          (continuation (vm.entry bytes address) tlb).attempt
            (fun cause => .trap cause tlb) (respond refusals) bytes := by
  unfold loadPte VmInfo.loadCall VmInfo.entry VmInfo.entryBytes
  by_cases short : vm.ptesize = 4
  · rw [if_pos short, if_pos short, if_pos short, Machine.bind_apply,
      Machine.request_apply, Program.call_bind, Program.attempt_call, respond]
    cases refusals (.loadPte32 address) <;> rfl
  · rw [if_neg short, if_neg short, if_neg short, Machine.bind_apply,
      Machine.request_apply, Program.call_bind, Program.attempt_call, respond]
    cases refusals (.loadPte64 address) <;> rfl

/-! ## The lookup -/

namespace Pte

/-- Not valid, or writable without readable. -/
def isInvalid (pte : Pte) : Bool := !pte.v || (!pte.r && pte.w)

def isPointer (pte : Pte) : Bool := !pte.r && !pte.x

end Pte

/-- Where a lookup ends. -/
inductive Found : Type
  | missing
  | refused (cause : SimulationTrap)
  | leaf (level : Nat) (address : BitVec 64) (pte : Pte)
  deriving DecidableEq

/-- Follow the pointers from the table at an address. -/
def find (refusals : Refusals) (vm : VmInfo) (vaddr : BitVec 64)
    (bytes : Paging.Memory) : Nat → BitVec 64 → Found
  | 0, _ => .missing
  | level + 1, base =>
      let address := pteAddress vm vaddr level base
      let pte := vm.entry bytes address
      match refusals (vm.loadCall address) with
      | some cause => .refused cause
      | none =>
          if pte.isInvalid then .missing
          else if pte.isPointer then
            find refusals vm vaddr bytes level (pte.ppn <<< pgShift)
          else .leaf level address pte

/-- The lookup of a page from the root table. -/
def locate (refusals : Refusals) (core : Core) (vm : VmInfo)
    (vaddr : BitVec 64) (bytes : Paging.Memory) : Found :=
  find refusals vm vaddr bytes
    (if checkVaddrExtension core vaddr vm then vm.levels else 0) vm.ptbase

/-! ## The conclusion -/

section Conclude

variable (refusals : Refusals) (core : Core) (vm : VmInfo)
  (vaddr : BitVec 64) (type : MemoryAccessType) (sMode : Bool)

/-- The entry with the flags of the access, stored where it was found. -/
def markCall (type : MemoryAccessType) (address : BitVec 64) (pte : Pte) :
    Call :=
  .storePte32 address ((pte ||| Pte.accessedDirty type).setWidth 32)

/-- What an access makes of the entry that was found. -/
def conclude (bytes : Paging.Memory) :
    Found → Except SimulationTrap (BitVec 64) × Paging.Memory
  | .missing => (.error (pageFault type vaddr), bytes)
  | .refused cause => (.error cause, bytes)
  | .leaf level address pte =>
      let ad := Pte.accessedDirty type
      let paddr := leafAddress vaddr (level * vm.idxbits) pte
      if checkPte core type sMode (level * vm.idxbits) pte = .leaf then
        if pte &&& ad ≠ ad then
          if core.pageFaultOnAD then (.error (pageFault type vaddr), bytes)
          else
            match refusals (markCall type address pte) with
            | some cause => (.error cause, bytes)
            | none =>
                (.ok paddr, storeWord bytes address.toNat
                  ((pte ||| ad).setWidth 32))
        else (.ok paddr, bytes)
      else (.error (pageFault type vaddr), bytes)

end Conclude

/-- The outcome of a walk, which leaves the buffer alone. -/
def settled (tlb : Tlb) :
    Except SimulationTrap (BitVec 64) × Paging.Memory →
      Outcome Tlb SimulationTrap Fatal (BitVec 64) × Paging.Memory
  | (.ok paddr, bytes) => (.done paddr tlb, bytes)
  | (.error cause, bytes) => (.trap cause tlb, bytes)

section Check

variable {core : Core} {type : MemoryAccessType} {sMode : Bool}
  {ptshift : Nat} {pte : Pte}

theorem checkPte_of_isInvalid (isInvalid : pte.isInvalid = true) :
    checkPte core type sMode ptshift pte = .fault :=
  if_pos isInvalid

theorem checkPte_of_isPointer (valid : ¬ pte.isInvalid = true)
    (isPointer : pte.isPointer = true) :
    checkPte core type sMode ptshift pte = .pointer := by
  rw [checkPte]
  exact (if_neg valid).trans (if_pos isPointer)

/-- At a leaf nothing is followed. -/
theorem checkPte_ne_pointer (valid : ¬ pte.isInvalid = true)
    (ends : ¬ pte.isPointer = true) :
    checkPte core type sMode ptshift pte ≠ .pointer := by
  have first : checkPte core type sMode ptshift pte = _ :=
    (if_neg valid).trans (if_neg ends)
  rw [first]
  repeat' split
  all_goals nofun

end Check

/-- A walk is a lookup and its conclusion. -/
theorem walkLevels_attempt (refusals : Refusals) (core : Core) (vm : VmInfo)
    (vaddr : BitVec 64) (type : MemoryAccessType) (sMode : Bool) (tlb : Tlb)
    (bytes : Paging.Memory) (levels : Nat) (base : BitVec 64) :
    (walkLevels core vm vaddr type sMode levels base tlb).attempt
        (fun cause => .trap cause tlb) (respond refusals) bytes =
      settled tlb (conclude refusals core vm vaddr type sMode bytes
        (find refusals vm vaddr bytes levels base)) := by
  induction levels generalizing base with
  | zero => rfl
  | succ level inductionHypothesis =>
      rw [walkLevels, find]
      dsimp only
      rw [loadPte_attempt]
      generalize pteAddress vm vaddr level base = address
      cases refusals (vm.loadCall address) with
      | some cause => rfl
      | none =>
          dsimp only
          generalize vm.entry bytes address = pte
          by_cases isInvalid : pte.isInvalid = true
          · rw [checkPte_of_isInvalid isInvalid, if_pos isInvalid]
            rfl
          rw [if_neg isInvalid]
          by_cases isPointer : pte.isPointer = true
          · rw [checkPte_of_isPointer isInvalid isPointer, if_pos isPointer]
            exact inductionHypothesis (pte.ppn <<< pgShift)
          rw [if_neg isPointer, conclude]
          have ends : checkPte core type sMode (level * vm.idxbits) pte ≠ .pointer :=
            checkPte_ne_pointer isInvalid isPointer
          cases verdict : checkPte core type sMode (level * vm.idxbits) pte with
          | pointer => exact absurd verdict ends
          | fault => rfl
          | leaf =>
              dsimp only
              rw [if_pos rfl]
              by_cases marked : pte &&& Pte.accessedDirty type =
                  Pte.accessedDirty type
              · rw [if_neg (not_not.2 marked), if_neg (not_not.2 marked)]
                rfl
              rw [if_pos marked, if_pos marked]
              cases core.pageFaultOnAD with
              | true => rfl
              | false =>
                  rw [if_neg Bool.false_ne_true, if_neg Bool.false_ne_true,
                    Machine.bind_apply, Machine.request_apply,
                    Program.call_bind, Program.attempt_call, respond,
                    markCall]
                  cases refusals (.storePte32 address
                    ((pte ||| Pte.accessedDirty type).setWidth 32)) <;> rfl

end Mmu

end RiscvVp
