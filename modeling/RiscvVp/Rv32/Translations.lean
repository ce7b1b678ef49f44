import RiscvVp.Core.TlbFills
import RiscvVp.Rv32.Memory
import RiscvVp.Interaction.Frame

/-!
# The translations of a hart

`v2p` either concludes at once and changes nothing, or puts the page into the
buffer of the hart.
-/

namespace RiscvVp

namespace Rv32

open Interaction

namespace Memory

/-- The address that `v2p` has without a walk. -/
def immediate (cfg : Config) (hart : Hart) (vaddr : BitVec 64)
    (type : MemoryAccessType) : Option (BitVec 64) :=
  if cfg.mmu then Mmu.immediate (mmuCore hart) vaddr type hart.tlb
  else some vaddr

/-- The half of the buffer that the access asks. -/
def bySupervisor (hart : Hart) (type : MemoryAccessType) : Bool :=
  Mmu.bySupervisor (mmuCore hart) type

variable {cfg : Config} {hart : Hart} {vaddr : BitVec 64}
  {type : MemoryAccessType}

theorem v2p_of_mmu (mmu : cfg.mmu = true) :
    v2p cfg vaddr type hart = runMmu cfg
      (Mmu.translateVirtualToPhysicalAddr (mmuCore hart) vaddr type) hart := by
  unfold v2p
  rw [if_pos mmu]
  rfl

theorem v2p_immediate {paddr : BitVec 64}
    (found : immediate cfg hart vaddr type = some paddr) :
    v2p cfg vaddr type hart = .ret (.done paddr hart) := by
  unfold immediate at found
  by_cases mmu : cfg.mmu = true
  · rw [if_pos mmu] at found
    rw [v2p_of_mmu mmu, runMmu, Machine.embed, Machine.bind_apply,
      Machine.reads_apply, Program.ret_bind, Machine.andThen_done,
      Mmu.translate_immediate found]
    rfl
  · rw [if_neg mmu] at found
    cases found
    unfold v2p
    rw [if_neg mmu]
    rfl

/-- What a translation that concludes leaves in the buffer. -/
theorem v2p_leaves (cfg : Config) (hart : Hart) (vaddr : BitVec 64)
    (type : MemoryAccessType) :
    (v2p cfg vaddr type hart).All fun outcome =>
      ∀ paddr later, outcome = .done paddr later →
        (immediate cfg hart vaddr type = some paddr ∧
          later.tlb = hart.tlb) ∨
          (¬ Mmu.Cached hart.tlb (bySupervisor hart type) type vaddr ∧
            ∃ ppn, later.tlb = hart.tlb.update (bySupervisor hart type) type
              (Mmu.tlbIndex vaddr) ⟨ppn, vaddr >>> Mmu.pgShift⟩) := by
  by_cases mmu : cfg.mmu = true
  · rw [v2p_of_mmu mmu, immediate, if_pos mmu]
    have results := Machine.Framed.embed_results (answerMmu cfg) Hart.tlb
      (fun tlb (hart : Hart) => { hart with tlb := tlb })
      (Mmu.translate_leaves (mmuCore hart) vaddr type hart.tlb)
    refine results.mono fun outcome within paddr later same => ?_
    obtain ⟨part, before, rfl, leaves⟩ := within paddr later same
    exact leaves
  · have found : immediate cfg hart vaddr type = some vaddr := if_neg mmu
    rw [v2p_immediate found, Program.all_ret]
    rintro _ _ ⟨⟩
    exact .inl ⟨found, rfl⟩

end Memory

end Rv32

end RiscvVp
