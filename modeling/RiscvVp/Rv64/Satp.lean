import RiscvVp.Rv64.Memory

/-!
# Writes of `satp`

The 64-bit core keeps the old mode when an unsupported one is written, after it
has stored the other fields.  So a write that should have no effect moves the
root of the page tables, exactly when it names another one.
-/

namespace RiscvVp

namespace Rv64

open Bits Interaction

namespace Mstatus

def tvm : BitField 64 := ⟨20, 1, by decide⟩

end Mstatus

/-- `SATP_MASK` -/
def satpMask : BitVec 64 :=
  0b1111000000000000000011111111111111111111111111111111111111111111

/-- `SATP_MODE_BARE`, `SATP_MODE_SV39` or `SATP_MODE_SV48` -/
def SupportedMode (mode : BitVec Satp.mode.len) : Prop :=
  mode = 0 ∨ mode = 8 ∨ mode = 9

instance (mode : BitVec Satp.mode.len) : Decidable (SupportedMode mode) :=
  inferInstanceAs (Decidable (_ ∨ _))

/-- `RAISE_ILLEGAL_INSTRUCTION` -/
def raiseIllegalInstruction {α : Type} (instr : Instruction) : HartM α :=
  Machine.raise ⟨.illegalInstr, instr.setWidth 64⟩

/-- `set_csr_value` at `SATP_ADDR` -/
def setSatp (instr : Instruction) (value : BitVec 64) : HartM Unit := do
  let hart ← Machine.reads id
  if Mstatus.tvm.isSet hart.mstatus then raiseIllegalInstruction instr
  let mode := Satp.mode.get hart.satp
  Machine.modifies fun hart =>
    { hart with satp := writeMasked hart.satp value satpMask }
  let written ← Machine.reads fun hart : Hart => Satp.mode.get hart.satp
  if ¬ SupportedMode written then
    Machine.modifies fun hart =>
      { hart with satp := Satp.mode.set mode hart.satp }

/-! ## What a write does -/

/-- The register after a write that is not refused. -/
def satpAfter (old value : BitVec 64) : BitVec 64 :=
  if SupportedMode (Satp.mode.get value) then writeMasked old value satpMask
  else writeMasked old value Satp.ppn.mask

theorem mode_writeMasked (old value : BitVec 64) :
    Satp.mode.get (writeMasked old value satpMask) = Satp.mode.get value :=
  BitField.get_writeMasked_of_mask (by decide) old value

/-- Restoring the mode leaves the written root of the page tables. -/
theorem restored (old value : BitVec 64) :
    Satp.mode.set (Satp.mode.get old) (writeMasked old value satpMask) =
      writeMasked old value Satp.ppn.mask := by
  have remaining : satpMask &&& ~~~Satp.mode.mask = Satp.ppn.mask := by decide
  rw [BitField.set_get_writeMasked, remaining]

theorem setSatp_apply (instr : Instruction) (value : BitVec 64)
    (hart : Hart) :
    setSatp instr value hart = .ret
      (if Mstatus.tvm.isSet hart.mstatus then
        .trap ⟨.illegalInstr, instr.setWidth 64⟩ hart
      else .done () { hart with satp := satpAfter hart.satp value }) := by
  cases refused : Mstatus.tvm.isSet hart.mstatus with
  | true => simp [setSatp, raiseIllegalInstruction, refused]
  | false =>
      by_cases supported : SupportedMode (Satp.mode.get value)
      · simp [setSatp, refused, mode_writeMasked, satpAfter, supported]
      · simp [setSatp, refused, mode_writeMasked, satpAfter, supported,
          restored]

/-! ## All or nothing -/

/-- The two effects that a write may have, and what the second one means for
later translations. -/
structure Legalized (value : BitVec 64) (before after : Hart) : Prop where
  whole : SupportedMode (Satp.mode.get value) →
    after = { before with satp := writeMasked before.satp value satpMask }
  nothing : ¬ SupportedMode (Satp.mode.get value) → after = before
  translation : ¬ SupportedMode (Satp.mode.get value) →
    Mmu.decodeVmInfo (Memory.mmuCore after) =
      Mmu.decodeVmInfo (Memory.mmuCore before)

/-- A write is all or nothing, and nothing when it is refused. -/
def AllOrNothing (value : BitVec 64) (before : Hart) :
    Outcome Hart SimulationTrap Fatal Unit → Prop
  | .done _ after => Legalized value before after
  | .trap _ after => after = before
  | .abort _ => False

theorem legalized_iff (value : BitVec 64) (hart : Hart) :
    Legalized value hart { hart with satp := satpAfter hart.satp value } ↔
      SupportedMode (Satp.mode.get value) ∨
        Satp.ppn.get value = Satp.ppn.get hart.satp := by
  by_cases supported : SupportedMode (Satp.mode.get value)
  · have written : satpAfter hart.satp value =
        writeMasked hart.satp value satpMask := if_pos supported
    rw [written]
    refine iff_of_true ?_ (.inl supported)
    exact ⟨fun _ => rfl, absurd supported, absurd supported⟩
  · have moved : satpAfter hart.satp value =
        writeMasked hart.satp value Satp.ppn.mask := if_neg supported
    rw [moved, ← BitField.writeMasked_mask_eq_self_iff]
    constructor
    · intro legalized
      exact .inr (congrArg Hart.satp (legalized.nothing supported))
    · intro same
      have kept := same.resolve_left supported
      rw [kept]
      exact ⟨fun other => absurd other supported, fun _ => rfl, fun _ => rfl⟩

/-- A write is all or nothing when it is refused, when its mode is supported or
when it names the root that is set already. -/
theorem allOrNothing_iff (instr : Instruction) (value : BitVec 64)
    (hart : Hart) :
    (setSatp instr value hart).All (AllOrNothing value hart) ↔
      Mstatus.tvm.isSet hart.mstatus = true ∨
        SupportedMode (Satp.mode.get value) ∨
        Satp.ppn.get value = Satp.ppn.get hart.satp := by
  rw [setSatp_apply, Program.all_ret, ← legalized_iff]
  cases refused : Mstatus.tvm.isSet hart.mstatus with
  | true => simp [AllOrNothing]
  | false => simp [AllOrNothing]

/-- Sv39 with its root at page 1, and a write of mode 1 with page 2. -/
theorem not_allOrNothing :
    ¬ ∀ (instr : Instruction) (value : BitVec 64) (hart : Hart),
      (setSatp instr value hart).All (AllOrNothing value hart) := by
  intro always
  let hart : Hart :=
    { regs := fun _ => 0
      mhartid := 0
      mstatus := 0
      satp := 0x8000000000000001
      prv := supervisorMode
      tlb := Mmu.flushTlb }
  have holds := always 0 0x1000000000000002 hart
  rw [setSatp_apply, Program.all_ret, if_neg (by decide)] at holds
  have same := congrArg Hart.satp (holds.nothing (by decide))
  exact absurd same (by decide)

end Rv64

end RiscvVp
