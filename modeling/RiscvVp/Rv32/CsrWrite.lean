import RiscvVp.Rv32.CsrAccess

/-!
# What a CSR write can write

A completed write changes one register at most.  The registers that matter for
translation, status and interrupts are written through their masks only, and
the hart's number has a read-only address.
-/

namespace RiscvVp

namespace Rv32

open Bits Csr Interaction

namespace Csr

/-- The registers that the default case of the write never reaches. -/
def Register.isGuarded : Register → Bool
  | .misa | .mstatus | .mip | .mie | .satp => true
  | _ => false

theorem default_not_isGuarded {addr : BitVec 32}
    (access : writeAccess addr = .default) {register : Register}
    (mapped : registerMapping addr = some register) :
    register.isGuarded = false := by
  unfold registerMapping at mapped
  split at mapped
  case h_45 =>
    split at mapped
    · cases mapped
      rfl
    split at mapped
    · cases mapped
      rfl
    · cases mapped
  all_goals
    cases mapped
    first
    | rfl
    | nomatch access

/-- Only a read-only address names the hart's number. -/
theorem isReadOnly_of_mhartid {addr : BitVec 32}
    (mapped : registerMapping addr = some .mhartid) :
    isReadOnly addr = true := by
  unfold registerMapping at mapped
  split at mapped
  case h_16 => decide
  case h_45 =>
    split at mapped
    · cases mapped
    split at mapped
    · cases mapped
    · cases mapped
  all_goals cases mapped

/-- What a write does when it completes: the register, and the word from the
old word. -/
inductive Writes (addr value : BitVec 32) (hart : Hart) : Hart → Prop
  | ignored (access : writeAccess addr = .ignored) : Writes addr value hart hart
  | masked {register : Register} {mask : BitVec 32}
      (access : writeAccess addr = .masked register mask) :
      Writes addr value hart <|
        hart.setCsr register (writeMasked (hart.csrs register) value mask)
  | exceptionPc {register : Register}
      (access : writeAccess addr = .exceptionPc register) :
      Writes addr value hart <|
        hart.setCsr register
          (writeMasked (hart.csrs register) value hart.pcAlignmentMask)
  | field {register : Register} {field : BitField 32}
      (access : writeAccess addr = .field register field) :
      Writes addr value hart <|
        hart.setCsrField register field (value.setWidth field.len)
  | satp (access : writeAccess addr = .satp) :
      Writes addr value hart <|
        hart.setCsr .satp (writeMasked (hart.csrs .satp) value satpMask)
  | default {register : Register} (access : writeAccess addr = .default)
      (mapped : registerMapping addr = some register) :
      Writes addr value hart (hart.setCsr register value)

/-- A write asks nothing of the surroundings.  It completes, or it traps and
has changed nothing. -/
theorem setCsrValue_outcome (addr value : BitVec 32) (hart : Hart) :
    (∃ after, setCsrValue addr value hart = .ret (.done () after) ∧
      Writes addr value hart after) ∨
    ∃ trap, setCsrValue addr value hart = .ret (.trap trap hart) ∧
      (writeAccess addr = .satp ∧
        Mstatus.tvm.isSet (hart.csrs .mstatus) = true ∨
      writeAccess addr = .default ∧ registerMapping addr = none) := by
  cases access : writeAccess addr with
  | ignored =>
      exact .inl ⟨hart, by simp [setCsrValue, access], .ignored access⟩
  | masked register mask =>
      exact .inl ⟨_, by simp [setCsrValue, access, writeCsr],
        .masked access⟩
  | exceptionPc register =>
      exact .inl ⟨_, by simp [setCsrValue, access, writeCsr],
        .exceptionPc access⟩
  | field register field =>
      exact .inl ⟨_, by simp [setCsrValue, access], .field access⟩
  | satp =>
      by_cases tvm : Mstatus.tvm.isSet (hart.csrs .mstatus) = true
      · exact .inr ⟨⟨.illegalInstr, hart.instr.setWidth 64⟩,
          by simp [setCsrValue, access, tvm, raiseIllegalInstruction],
          .inl ⟨rfl, tvm⟩⟩
      · exact .inl ⟨_, by simp [setCsrValue, access, tvm, writeCsr],
          .satp access⟩
  | default =>
      cases mapped : registerMapping addr with
      | none =>
          exact .inr ⟨⟨.illegalInstr, hart.instr.setWidth 64⟩,
            by simp [setCsrValue, access, mapped, raiseIllegalInstruction],
            .inr ⟨rfl, rfl⟩⟩
      | some register =>
          exact .inl ⟨_, by simp [setCsrValue, access, mapped],
            .default access mapped⟩

/-! ## The protected registers -/

/-- What the masks of the switch allow. -/
theorem masked_cases {addr : BitVec 32} {register : Register}
    {mask : BitVec 32} (access : writeAccess addr = .masked register mask) :
    (register.isGuarded = false ∧ register ≠ .mhartid) ∨
      ((register = .mie ∨ register = .mip) ∧ Within mieMask mask) ∨
      (register = .mstatus ∧ (addr = 0x300 ∧ mask = mstatusMask ∨
        Mstatus.mpp.get mask = 0#2)) := by
  unfold writeAccess at access
  split at access
  case h_29 =>
    split at access
    · cases access
    split at access
    · cases access
    · cases access
  all_goals
    first
    | (cases access; done)
    | (cases access; decide)

theorem exceptionPc_cases {addr : BitVec 32} {register : Register}
    (access : writeAccess addr = .exceptionPc register) :
    register = .mepc ∨ register = .sepc ∨ register = .uepc := by
  unfold writeAccess at access
  split at access
  case h_29 =>
    split at access
    · cases access
    split at access
    · cases access
    · cases access
  all_goals
    first
    | (cases access; done)
    | (cases access; simp)

theorem field_cases {addr : BitVec 32} {register : Register}
    {field : BitField 32} (access : writeAccess addr = .field register field) :
    register = .fcsr := by
  unfold writeAccess at access
  split at access
  case h_29 =>
    split at access
    · cases access
    split at access
    · cases access
    · cases access
  all_goals
    first
    | (cases access; done)
    | (cases access; rfl)

namespace Writes

variable {addr value : BitVec 32} {hart after : Hart}

/-- A write changes one register at most. -/
theorem changes_one (writes : Writes addr value hart after) :
    after = hart ∨ ∃ register word, after = hart.setCsr register word := by
  cases writes with
  | ignored access => exact .inl rfl
  | _ => exact .inr ⟨_, _, rfl⟩

theorem prv (writes : Writes addr value hart after) :
    after.prv = hart.prv := by
  obtain rfl | ⟨register, word, rfl⟩ := writes.changes_one <;> rfl

theorem lastPc (writes : Writes addr value hart after) :
    after.lastPc = hart.lastPc := by
  obtain rfl | ⟨register, word, rfl⟩ := writes.changes_one <;> rfl

/-- A register that is neither guarded nor named by the address keeps its
word. -/
theorem csr_of_ne (writes : Writes addr value hart after)
    {register : Register}
    (masked : ∀ mask, writeAccess addr ≠ .masked register mask)
    (exceptionPc : writeAccess addr ≠ .exceptionPc register)
    (field : ∀ field, writeAccess addr ≠ .field register field)
    (satp : register ≠ .satp)
    (default : writeAccess addr = .default →
      registerMapping addr ≠ some register) :
    after.csrs register = hart.csrs register := by
  have other : ∀ {written : Register} {word : BitVec 32},
      register ≠ written →
      (hart.setCsr written word).csrs register = hart.csrs register :=
    fun distinct => CsrTable.set_of_ne _ _ distinct
  cases writes with
  | ignored access => rfl
  | masked access =>
      refine other ?_
      rintro rfl
      exact masked _ access
  | exceptionPc access =>
      refine other ?_
      rintro rfl
      exact exceptionPc access
  | field access =>
      refine other ?_
      rintro rfl
      exact field _ access
  | satp access => exact other satp
  | default access mapped =>
      refine other ?_
      rintro rfl
      exact default access mapped

theorem mhartid (writes : Writes addr value hart after)
    (writable : isReadOnly addr = false) :
    after.csrs .mhartid = hart.csrs .mhartid := by
  refine writes.csr_of_ne ?_ ?_ ?_ nofun ?_
  · intro mask access
    rcases masked_cases access with ⟨_, distinct⟩ | ⟨same | same, _⟩ | ⟨same, _⟩
    · exact distinct rfl
    all_goals cases same
  · intro access
    rcases exceptionPc_cases access with same | same | same <;> cases same
  · intro field access
    cases field_cases access
  · intro _ mapped
    rw [isReadOnly_of_mhartid mapped] at writable
    cases writable

/-- A guarded register other than `satp` is written through a mask, or not at
all. -/
theorem of_guarded (writes : Writes addr value hart after)
    {register : Register} (guarded : register.isGuarded = true)
    (notSatp : register ≠ .satp) :
    after.csrs register = hart.csrs register ∨
      ∃ mask, writeAccess addr = .masked register mask ∧
        after.csrs register =
          writeMasked (hart.csrs register) value mask := by
  by_cases named : ∃ mask, writeAccess addr = .masked register mask
  · obtain ⟨mask, access⟩ := named
    right
    refine ⟨mask, access, ?_⟩
    cases writes with
    | masked access' =>
        rw [access] at access'
        cases access'
        exact CsrTable.set_same _ _ _
    | ignored access' => rw [access] at access'; cases access'
    | exceptionPc access' => rw [access] at access'; cases access'
    | field access' => rw [access] at access'; cases access'
    | satp access' => rw [access] at access'; cases access'
    | default access' => rw [access] at access'; cases access'
  · left
    refine writes.csr_of_ne (fun mask access => named ⟨mask, access⟩) ?_ ?_
      notSatp ?_
    · intro access
      rcases exceptionPc_cases access with rfl | rfl | rfl <;> cases guarded
    · intro field access
      obtain rfl := field_cases access
      cases guarded
    · intro access mapped
      rw [default_not_isGuarded access mapped] at guarded
      cases guarded

/-- The interrupt registers never leave the bits of the nine interrupts. -/
theorem within_mieMask (writes : Writes addr value hart after)
    {register : Register} (interrupt : register = .mie ∨ register = .mip)
    (within : Within mieMask (hart.csrs register)) :
    Within mieMask (after.csrs register) := by
  have guarded : register.isGuarded = true ∧ register ≠ .satp := by
    rcases interrupt with rfl | rfl <;> decide
  rcases writes.of_guarded guarded.1 guarded.2 with kept | ⟨mask, access, word⟩
  · rwa [kept]
  · rw [word]
    rcases masked_cases access with ⟨contradiction, _⟩ | ⟨_, narrower⟩ | ⟨same, _⟩
    · rw [guarded.1] at contradiction
      cases contradiction
    · exact within.writeMasked narrower value
    · rcases interrupt with rfl | rfl <;> cases same

/-- Only the address of `mstatus` itself reaches `mpp`. -/
theorem mpp (writes : Writes addr value hart after) (other : addr ≠ 0x300) :
    Mstatus.mpp.get (after.csrs .mstatus) =
      Mstatus.mpp.get (hart.csrs .mstatus) := by
  have guarded : Register.isGuarded .mstatus = true := rfl
  rcases writes.of_guarded guarded nofun with kept | ⟨mask, access, word⟩
  · rw [kept]
  · rw [word]
    rcases masked_cases access with ⟨contradiction, _⟩ | ⟨same | same, _⟩ |
      ⟨_, ⟨same, _⟩ | outside⟩
    · cases contradiction
    · cases same
    · cases same
    · exact absurd same other
    · exact BitField.get_writeMasked_of_not_mask outside _ _

end Writes

end Csr

end Rv32

end RiscvVp
