import Mathlib
import RiscvVp.Core.MmuFrame
import RiscvVp.Core.TlbTranslation

/-!
# What a translation leaves in the buffer

An immediate translation concludes without memory and leaves the buffer as
it is; every other one that concludes leaves an entry that was not there.
-/

namespace RiscvVp

namespace Mmu

open Interaction

/-- The buffer has the page. -/
def Cached (tlb : Tlb) (supervisor : Bool) (type : MemoryAccessType)
    (vaddr : BitVec 64) : Prop :=
  (tlb supervisor type (tlbIndex vaddr)).vpn = vaddr >>> pgShift

instance (tlb : Tlb) (supervisor : Bool) (type : MemoryAccessType)
    (vaddr : BitVec 64) : Decidable (Cached tlb supervisor type vaddr) :=
  inferInstanceAs (Decidable (_ = _))

/-- The access is made in supervisor mode. -/
def bySupervisor (core : Core) (type : MemoryAccessType) : Bool :=
  effectiveMode core type == supervisorMode

/-- The address of an access that is not translated, or of a page in the
buffer. -/
def immediate (core : Core) (vaddr : BitVec 64) (type : MemoryAccessType)
    (tlb : Tlb) : Option (BitVec 64) :=
  if core.satpMode = 0 ∨ effectiveMode core type = machineMode then some vaddr
  else if effectiveMode core type = userMode ∨
      effectiveMode core type = supervisorMode then
    if Cached tlb (bySupervisor core type) type vaddr then
      some ((tlb (bySupervisor core type) type (tlbIndex vaddr)).address vaddr)
    else none
  else none

variable {core : Core} {vaddr : BitVec 64} {type : MemoryAccessType}
  {tlb : Tlb}

/-! ## The buffer -/

theorem Cached.update {supervisor : Bool}
    (cached : Cached tlb supervisor type vaddr) (other : Bool)
    (ppn : BitVec 64) :
    Cached (tlb.update other type (tlbIndex vaddr) ⟨ppn, vaddr >>> pgShift⟩)
      supervisor type vaddr := by
  unfold Cached Tlb.update
  split
  · rfl
  · exact cached

theorem cached_update (tlb : Tlb) (supervisor : Bool) (type : MemoryAccessType)
    (vaddr ppn : BitVec 64) :
    Cached
      (tlb.update supervisor type (tlbIndex vaddr) ⟨ppn, vaddr >>> pgShift⟩)
      supervisor type vaddr := by
  rw [Cached, Tlb.update_same]

/-- The frame of what leaves the buffer as it is. -/
def still : Frame Tlb Fatal where
  pre _ := True
  related before after := after = before
  refl _ := rfl
  trans first second := second.trans first
  stable _ _ := trivial
  aborts _ := True

theorem walk_still (core : Core) (vaddr : BitVec 64) (type : MemoryAccessType)
    (mode : PrivilegeLevel) (tlb : Tlb) :
    (walk core vaddr type mode tlb).All fun outcome =>
      ∀ paddr later, outcome = .done paddr later → later = tlb := by
  by_cases known : (decodeVmInfo core).isSome
  · have framed := framed_walk still known vaddr type mode
    refine (framed.framed tlb trivial).mono ?_
    rintro outcome within paddr later rfl
    exact (still.post_done tlb paddr later).mp within
  · rw [Option.not_isSome_iff_eq_none] at known
    rw [walk, known]
    rintro _ _ ⟨⟩

/-! ## Translations -/

/-- Beyond the checks of the mode there is the buffer and then the walk. -/
theorem translate_of_valid (translated : core.satpMode ≠ 0)
    (notMachine : effectiveMode core type ≠ machineMode)
    (valid : effectiveMode core type = userMode ∨
      effectiveMode core type = supervisorMode) :
    translateVirtualToPhysicalAddr core vaddr type tlb =
      if Cached tlb (bySupervisor core type) type vaddr then
        .ret (.done ((tlb (bySupervisor core type) type
          (tlbIndex vaddr)).address vaddr) tlb)
      else
        (walk core vaddr type (effectiveMode core type) >>= fun paddr => do
          Machine.modifies fun tlb : Tlb =>
            tlb.update (bySupervisor core type) type (tlbIndex vaddr)
              (.ofWalk vaddr paddr)
          pure paddr : MmuM (BitVec 64)) tlb := by
  have asserted : (effectiveMode core type == userMode ||
      effectiveMode core type == supervisorMode) = true := by
    simpa using valid
  unfold translateVirtualToPhysicalAddr
  rw [if_neg translated]
  dsimp only
  rw [if_neg notMachine, asserted, Machine.assert_true]
  change (if (tlb (bySupervisor core type) type (tlbIndex vaddr)).vpn =
    vaddr >>> pgShift then _ else _ : MmuM (BitVec 64)) tlb = _
  rw [Machine.ite_apply]
  rfl

theorem translate_immediate {paddr : BitVec 64}
    (found : immediate core vaddr type tlb = some paddr) :
    translateVirtualToPhysicalAddr core vaddr type tlb =
      .ret (.done paddr tlb) := by
  unfold immediate at found
  by_cases untranslated : core.satpMode = 0 ∨
      effectiveMode core type = machineMode
  · rw [if_pos untranslated] at found
    cases found
    unfold translateVirtualToPhysicalAddr
    by_cases bare : core.satpMode = 0
    · rw [if_pos bare]
      rfl
    · rw [if_neg bare]
      dsimp only
      rw [if_pos (untranslated.resolve_left bare)]
      rfl
  · rw [if_neg untranslated, Option.ite_none_right_eq_some,
      Option.ite_none_right_eq_some] at found
    rw [not_or] at untranslated
    obtain ⟨valid, cached, same⟩ := found
    rw [translate_of_valid untranslated.1 untranslated.2 valid, if_pos cached,
      Option.some.inj same]

/-- What a translation that concludes leaves. -/
theorem translate_leaves (core : Core) (vaddr : BitVec 64)
    (type : MemoryAccessType) (tlb : Tlb) :
    (translateVirtualToPhysicalAddr core vaddr type tlb).All fun outcome =>
      ∀ paddr later, outcome = .done paddr later →
        (immediate core vaddr type tlb = some paddr ∧ later = tlb) ∨
          (¬ Cached tlb (bySupervisor core type) type vaddr ∧
            ∃ ppn, later = tlb.update (bySupervisor core type) type
              (tlbIndex vaddr) ⟨ppn, vaddr >>> pgShift⟩) := by
  cases found : immediate core vaddr type tlb with
  | some address =>
      rw [translate_immediate found, Program.all_ret]
      rintro paddr later ⟨⟩
      exact .inl ⟨rfl, rfl⟩
  | none =>
      unfold immediate at found
      by_cases untranslated : core.satpMode = 0 ∨
          effectiveMode core type = machineMode
      · rw [if_pos untranslated] at found
        nomatch found
      rw [if_neg untranslated] at found
      rw [not_or] at untranslated
      by_cases valid : effectiveMode core type = userMode ∨
          effectiveMode core type = supervisorMode
      · have missed : ¬ Cached tlb (bySupervisor core type) type vaddr := by
          intro cached
          rw [if_pos valid, if_pos cached] at found
          nomatch found
        rw [translate_of_valid untranslated.1 untranslated.2 valid,
          if_neg missed, Machine.all_bind]
        refine (walk_still core vaddr type _ tlb).mono fun outcome walked => ?_
        cases outcome with
        | done address middle =>
            rw [walked address middle rfl]
            rintro paddr later ⟨⟩
            exact .inr ⟨missed, _, rfl⟩
        | trap cause middle => exact nofun
        | abort reason => exact nofun
      · have refused : (effectiveMode core type == userMode ||
            effectiveMode core type == supervisorMode) = false := by
          simpa using valid
        unfold translateVirtualToPhysicalAddr
        rw [if_neg untranslated.1]
        dsimp only
        rw [if_neg untranslated.2, refused, Machine.assert_false]
        exact nofun

end Mmu

end RiscvVp
