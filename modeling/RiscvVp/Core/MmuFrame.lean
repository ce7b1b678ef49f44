import RiscvVp.Core.Mmu
import RiscvVp.Interaction.Frame

/-!
# How a translation can fail to end

The walk of the page tables never aborts.  A translation aborts only at the
assertion about the mode it is made for, or for a `satp` mode without page
tables.
-/

namespace RiscvVp

namespace Mmu

open Interaction

/-- The modes that a translation is made for. -/
def ValidMode (mode : PrivilegeLevel) : Prop :=
  mode = machineMode ∨ mode = userMode ∨ mode = supervisorMode

instance (frame : Frame Tlb Fatal) (vm : VmInfo) (addr : BitVec 64) :
    Machine.Framed frame (loadPte vm addr) := by
  unfold loadPte
  infer_instance

instance (frame : Frame Tlb Fatal) (core : Core) (vm : VmInfo)
    (vaddr : BitVec 64) (type : MemoryAccessType) (sMode : Bool)
    (levels : Nat) (base : BitVec 64) :
    Machine.Framed frame
      (walkLevels core vm vaddr type sMode levels base) := by
  induction levels generalizing base with
  | zero => exact inferInstanceAs (Machine.Framed frame (Machine.raise _))
  | succ level inductionHypothesis =>
      have following : ∀ pte : Pte, Machine.Framed frame
          (match checkPte core type sMode (level * vm.idxbits) pte with
          | .fault => Machine.raise (pageFault type vaddr)
          | .pointer =>
              walkLevels core vm vaddr type sMode level (pte.ppn <<< pgShift)
          | .leaf =>
              let ad := Pte.accessedDirty type
              if pte &&& ad ≠ ad then
                if core.pageFaultOnAD then
                  Machine.raise (pageFault type vaddr)
                else do
                  let _ ← Machine.request
                    (Call.storePte32 (pteAddress vm vaddr level base)
                      ((pte ||| ad).setWidth 32))
                  pure (leafAddress vaddr (level * vm.idxbits) pte)
              else pure (leafAddress vaddr (level * vm.idxbits) pte) :
            MmuM (BitVec 64)) := by
        intro pte
        split
        · infer_instance
        · exact inductionHypothesis _
        · infer_instance
      exact inferInstanceAs <| Machine.Framed frame <|
        loadPte vm (pteAddress vm vaddr level base) >>= _

/-- The walk aborts only for a `satp` mode without page tables. -/
theorem framed_walk (frame : Frame Tlb Fatal) {core : Core}
    (known : (decodeVmInfo core).isSome) (vaddr : BitVec 64)
    (type : MemoryAccessType) (mode : PrivilegeLevel) :
    Machine.Framed frame (walk core vaddr type mode) := by
  obtain ⟨vm, equation⟩ := Option.isSome_iff_exists.1 known
  rw [walk, equation]
  infer_instance

/-- Nor does the translation, for a valid mode. -/
theorem framed_translate (frame : Frame Tlb Fatal) (core : Core)
    (type : MemoryAccessType) (vaddr : BitVec 64)
    (moved : ∀ tlb idx entry, frame.related tlb
      (tlb.update (effectiveMode core type == supervisorMode) type idx entry))
    (known : core.satpMode ≠ 0 → (decodeVmInfo core).isSome)
    (valid : ¬ ValidMode (effectiveMode core type) →
      frame.aborts .mmuMode) :
    Machine.Framed frame
      (translateVirtualToPhysicalAddr core vaddr type) := by
  unfold translateVirtualToPhysicalAddr
  split
  · infer_instance
  next translated =>
  dsimp only
  split
  · infer_instance
  next notMachine =>
  have := framed_walk frame (known translated) vaddr type
    (effectiveMode core type)
  have := fun idx entry => Machine.Framed.modifies
    (R := Reply) (τ := SimulationTrap) fun tlb (_ : frame.pre tlb) =>
      moved tlb idx entry
  have asserted : Machine.Framed (R := Reply) (τ := SimulationTrap) frame
      (Machine.assert (effectiveMode core type == userMode ||
        effectiveMode core type == supervisorMode) Fatal.mmuMode) := by
    by_cases mode : effectiveMode core type = userMode ∨
        effectiveMode core type = supervisorMode
    · rw [show (effectiveMode core type == userMode ||
        effectiveMode core type == supervisorMode) = true by simpa using mode]
      exact inferInstanceAs (Machine.Framed frame (pure ()))
    · exact Machine.Framed.assert <| valid fun isValid =>
        isValid.elim notMachine mode
  infer_instance

/-! ## Traps -/

/-- A walk traps with the page fault of the access. -/
theorem walkLevels_traps (core : Core) (vm : VmInfo) (vaddr : BitVec 64)
    (type : MemoryAccessType) (sMode : Bool) (levels : Nat)
    (base : BitVec 64) (tlb : Tlb) :
    (walkLevels core vm vaddr type sMode levels base tlb).All fun outcome =>
      ∀ cause after, outcome = .trap cause after →
        cause = pageFault type vaddr := by
  induction levels generalizing base tlb with
  | zero =>
      rintro cause after ⟨⟩
      rfl
  | succ level inductionHypothesis =>
      rw [walkLevels, Machine.all_bind]
      have loaded : (loadPte vm (pteAddress vm vaddr level base) tlb).All
          fun outcome => ∃ pte, outcome = .done pte tlb := by
        unfold loadPte
        split
        · exact fun reply => ⟨_, rfl⟩
        · exact fun reply => ⟨_, rfl⟩
      refine loaded.mono fun outcome done => ?_
      obtain ⟨pte, rfl⟩ := done
      dsimp only
      cases checkPte core type sMode (level * vm.idxbits) pte with
      | fault =>
          rintro cause after ⟨⟩
          rfl
      | pointer => exact inductionHypothesis _ _
      | leaf =>
          dsimp only
          split
          · split
            · rintro cause after ⟨⟩
              rfl
            · exact fun _ => nofun
          · exact nofun

/-- So does a translation. -/
theorem translate_traps (core : Core) (vaddr : BitVec 64)
    (type : MemoryAccessType) (tlb : Tlb) :
    (translateVirtualToPhysicalAddr core vaddr type tlb).All fun outcome =>
      ∀ cause after, outcome = .trap cause after →
        cause = pageFault type vaddr := by
  have walked (mode : PrivilegeLevel) (tlb : Tlb) :
      (walk core vaddr type mode tlb).All fun outcome =>
        ∀ cause after, outcome = .trap cause after →
          cause = pageFault type vaddr := by
    unfold walk
    cases decodeVmInfo core with
    | none => exact nofun
    | some vm => apply walkLevels_traps
  unfold translateVirtualToPhysicalAddr
  split
  · exact nofun
  dsimp only
  split
  · exact nofun
  rw [Machine.all_bind]
  cases (effectiveMode core type == userMode ||
      effectiveMode core type == supervisorMode) with
  | false => exact nofun
  | true =>
      rw [Machine.assert_true, Machine.pure_apply, Program.all_ret]
      dsimp only
      rw [Machine.all_bind, Machine.reads_apply, Program.all_ret]
      dsimp only
      split
      · exact nofun
      rw [Machine.all_bind]
      refine (walked (effectiveMode core type) tlb).mono
        fun outcome traps => ?_
      cases outcome with
      | done paddr middle => exact nofun
      | trap cause middle => exact traps
      | abort reason => exact nofun

end Mmu

end RiscvVp
