import RiscvVp.Rv32.Services

/-!
# What an action may change

Two actions are about privilege and the control registers: the CSR write and
the return from a trap handler.  All others are `Plain`: they leave the
privilege level, the address of the instruction and the control registers
alone, up to the registers that change by themselves and, in `mstatus` and
`mip`, up to the bits of the floating-point unit and of the interrupts.

The integer registers change only through the actions that write them.
-/

namespace RiscvVp

namespace Rv32

open Bits Csr Interaction

/-- The registers that a plain action may change. -/
def Csr.Register.isVolatile : Register → Bool
  | .mstatus | .mip | .fcsr | .time | .timeh | .cycle | .cycleh | .instret
  | .instreth => true
  | _ => false

/-- `FS` and `SD` of `mstatus`. -/
def floatStatusMask : BitVec 32 := Mstatus.fs.mask ||| Mstatus.sd.mask

/-- The bits of `mip` that devices drive. -/
def interruptMask : BitVec 32 :=
  Mip.ueip.mask ||| Mip.seip.mask ||| Mip.meip.mask ||| Mip.mtip.mask |||
    Mip.msip.mask

/-- What a plain action keeps. -/
structure Steady (before after : Hart) : Prop where
  prv : after.prv = before.prv
  lastPc : after.lastPc = before.lastPc
  csr : ∀ register, register.isVolatile = false →
    after.csrs register = before.csrs register
  mstatus : after.csrs .mstatus &&& ~~~floatStatusMask =
    before.csrs .mstatus &&& ~~~floatStatusMask
  mip : after.csrs .mip &&& ~~~interruptMask =
    before.csrs .mip &&& ~~~interruptMask

namespace Steady

theorem refl (hart : Hart) : Steady hart hart := by
  constructor <;> first | rfl | exact fun _ _ => rfl

theorem trans {first second third : Hart} (left : Steady first second)
    (right : Steady second third) : Steady first third where
  prv := right.prv.trans left.prv
  lastPc := right.lastPc.trans left.lastPc
  csr register kept := (right.csr register kept).trans (left.csr register kept)
  mstatus := right.mstatus.trans left.mstatus
  mip := right.mip.trans left.mip

/-- An update of the hart that leaves all of this alone. -/
theorem of_csrs {before after : Hart} (prv : after.prv = before.prv)
    (lastPc : after.lastPc = before.lastPc)
    (csrs : after.csrs = before.csrs) : Steady before after where
  prv := prv
  lastPc := lastPc
  csr register _ := congrFun csrs register
  mstatus := by rw [csrs]
  mip := by rw [csrs]

/-- An update of one volatile register. -/
theorem setCsr (hart : Hart) {register : Register} {value : BitVec 32}
    (moves : register.isVolatile = true)
    (mstatus : register = .mstatus →
      value &&& ~~~floatStatusMask =
        hart.csrs .mstatus &&& ~~~floatStatusMask)
    (mip : register = .mip →
      value &&& ~~~interruptMask = hart.csrs .mip &&& ~~~interruptMask) :
    Steady hart (hart.setCsr register value) where
  prv := rfl
  lastPc := rfl
  csr other kept := by
    refine CsrTable.set_of_ne _ _ ?_
    rintro rfl
    rw [moves] at kept
    cases kept
  mstatus := by
    by_cases same : Register.mstatus = register
    · rw [Hart.setCsr_csrs, ← same, CsrTable.set_same]
      exact mstatus same.symm
    · rw [Hart.setCsr_csrs, CsrTable.set_of_ne _ _ same]
  mip := by
    by_cases same : Register.mip = register
    · rw [Hart.setCsr_csrs, ← same, CsrTable.set_same]
      exact mip same.symm
    · rw [Hart.setCsr_csrs, CsrTable.set_of_ne _ _ same]

theorem setPending (hart : Hart) {field : BitField 32} (pending : Bool)
    (inside : field.mask &&& ~~~interruptMask = 0#32) :
    Steady hart (hart.setPending field pending) :=
  setCsr hart rfl nofun fun _ => field.set_and_not _ _ inside

theorem interrupt (hart : Hart) (event : InterruptEvent) :
    Steady hart (hart.interrupt event) := by
  cases event with
  | external level pending =>
      rw [Hart.interrupt]
      split
      · exact setPending hart pending (by decide)
      split
      · exact setPending hart pending (by decide)
      split
      · exact setPending hart pending (by decide)
      · exact refl hart
  | timer status =>
      exact setPending hart status (by decide)
  | software status =>
      exact setPending hart status (by decide)

theorem setCsrField (hart : Hart) {field : BitField 32}
    (value : BitVec field.len)
    (inside : field.mask &&& ~~~floatStatusMask = 0#32) :
    Steady hart (hart.setCsrField .mstatus field value) :=
  setCsr hart rfl (fun _ => field.set_and_not _ _ inside) nofun

theorem fpSetDirty (hart : Hart) : Steady hart hart.fpSetDirty :=
  (setCsrField hart 1 (by decide)).trans (setCsrField _ 0b11 (by decide))

theorem fpUpdateExceptionFlags (hart : Hart) :
    Steady hart hart.fpUpdateExceptionFlags := by
  rw [Hart.fpUpdateExceptionFlags]
  split
  · have accrued := @setCsr hart.fpSetDirty .fcsr
      (Fcsr.fflags.set
        (Fcsr.fflags.get (hart.fpSetDirty.csrs .fcsr) |||
          hart.softfloatExceptionFlags)
        (hart.fpSetDirty.csrs .fcsr)) rfl nofun nofun
    exact (fpSetDirty hart).trans (accrued.trans (of_csrs rfl rfl rfl))
  · exact refl hart

theorem set64 (hart : Hart) {low high : Register} (value : BitVec 64)
    (lowMoves : low = .time ∨ low = .cycle ∨ low = .instret)
    (highMoves : high = .timeh ∨ high = .cycleh ∨ high = .instreth) :
    Steady hart { hart with csrs := hart.csrs.set64 low high value } := by
  have first : Steady hart (hart.setCsr low (value.extractLsb' 0 32)) := by
    rcases lowMoves with rfl | rfl | rfl
    · exact setCsr hart rfl nofun nofun
    · exact setCsr hart rfl nofun nofun
    · exact setCsr hart rfl nofun nofun
  refine first.trans ?_
  rcases highMoves with rfl | rfl | rfl
  · exact @setCsr _ .timeh (value.extractLsb' 32 32) rfl nofun nofun
  · exact @setCsr _ .cycleh (value.extractLsb' 32 32) rfl nofun nofun
  · exact @setCsr _ .instreth (value.extractLsb' 32 32) rfl nofun nofun

end Steady

/-! ## Aborts -/

/-- The ways in which a service, or the check before a fetch, may give up. -/
def isServiceAbort (reason : Fatal) : Prop :=
  reason = .misalignedInstruction ∨ reason = .dmiRange ∨ reason = .platform ∨ reason = .nullMmu ∨
    reason = .amoNotLocked ∨ reason = .syscall ∨
    reason = .registerAlreadyPending

/-- The states that are considered and the aborts that are tolerated there.
The MMU's assertion about the mode must be excluded by the one or tolerated
by the other. -/
structure Guard where
  pre : Hart → Prop
  stable : ∀ before after, pre before → Steady before after → pre after
  aborts : Fatal → Prop
  listed : ∀ reason, isServiceAbort reason → aborts reason
  mode : ∀ hart, pre hart → ∀ type,
    ¬ Mmu.ValidMode (Mmu.effectiveMode (Memory.mmuCore hart) type) →
      aborts .mmuMode

/-- The frame of the plain actions. -/
def Guard.frame (guard : Guard) (keepsRegs : Bool) : Frame Hart Fatal where
  pre := guard.pre
  related before after :=
    Steady before after ∧ (keepsRegs = true → after.regs = before.regs)
  refl hart := ⟨Steady.refl hart, fun _ => rfl⟩
  trans left right :=
    ⟨left.1.trans right.1, fun keeps => (right.2 keeps).trans (left.2 keeps)⟩
  stable met related := guard.stable _ _ met related.1
  aborts := guard.aborts

/-- Every state, with the assertion tolerated. -/
def Guard.any : Guard where
  pre _ := True
  stable _ _ _ _ := trivial
  aborts reason := isServiceAbort reason ∨ reason = .mmuMode
  listed _ listed := .inl listed
  mode _ _ _ _ := .inr rfl

namespace Guard

variable {α : Type} (guard : Guard) (keepsRegs : Bool)

theorem related_of_csrs {before after : Hart}
    (prv : after.prv = before.prv) (lastPc : after.lastPc = before.lastPc)
    (csrs : after.csrs = before.csrs) (regs : after.regs = before.regs) :
    (guard.frame keepsRegs).related before after :=
  ⟨Steady.of_csrs prv lastPc csrs, fun _ => regs⟩

instance : Supplies (guard.frame keepsRegs) where
  tlb _ _ _ := guard.related_of_csrs keepsRegs rfl rfl rfl rfl
  lrAddr _ _ _ := guard.related_of_csrs keepsRegs rfl rfl rfl rfl
  interrupt event hart _ := by
    exact ⟨Steady.interrupt hart event, fun _ => hart.interrupt_regs event⟩
  listed reason member := guard.listed reason <| by
    unfold isServiceAbort
    tauto
  mode := guard.mode
  time value hart _ :=
    ⟨Steady.set64 hart value (.inl rfl) (.inl rfl), fun _ => rfl⟩
  cycle value hart _ :=
    ⟨Steady.set64 hart value (.inr (.inl rfl)) (.inr (.inl rfl)), fun _ => rfl⟩
  pipeline _ _ _ := guard.related_of_csrs keepsRegs rfl rfl rfl rfl
  pending := guard.listed _ (by simp [isServiceAbort])
  syscall := guard.listed _ (by simp [isServiceAbort])

variable {guard keepsRegs}

/-- An assignment that leaves the registers, the privilege level and the
control registers alone. -/
theorem framed_modifies {update : Hart → Hart}
    (prv : ∀ hart, (update hart).prv = hart.prv)
    (lastPc : ∀ hart, (update hart).lastPc = hart.lastPc)
    (csrs : ∀ hart, (update hart).csrs = hart.csrs)
    (regs : ∀ hart, (update hart).regs = hart.regs) :
    Machine.Framed (guard.frame keepsRegs)
      (Machine.modifies update : HartM Unit) :=
  Machine.Framed.modifies fun hart _ =>
    guard.related_of_csrs keepsRegs (prv hart) (lastPc hart) (csrs hart)
      (regs hart)

/-- An assignment to the integer registers is within the frame that does not
keep them. -/
instance (regIdx : BitVec 5) (value : BitVec 32) :
    Machine.Framed (guard.frame false)
      (Machine.modifies fun hart => hart.setReg regIdx value :
        HartM Unit) :=
  Machine.Framed.modifies fun _ _ => ⟨Steady.of_csrs rfl rfl rfl, nofun⟩

instance : Machine.Framed (guard.frame false) executeSyscall :=
  executeSyscall_framed (fun _ _ _ => ⟨Steady.of_csrs rfl rfl rfl, nofun⟩)
    fun _ _ => ⟨Steady.of_csrs rfl rfl rfl, nofun⟩

end Guard

/-! ## Actions -/

namespace Action

/-- Neither a CSR write nor a return, and not the end of the simulator. -/
def isPlain : Action → Bool
  | .fatal _ | .setCsrValue _ _ | .returnFromTrapHandler _ => false
  | _ => true

def writesRegs : Action → Bool
  | .setReg _ _ | .executeSyscall => true
  | _ => false

end Action

/-- A plain action stays within the frame; the registers are kept unless it
writes them. -/
theorem perform_framed (cfg : Config) (guard : Guard) {action : Action}
    (plain : action.isPlain = true) :
    Machine.Framed (guard.frame !action.writesRegs) (perform cfg action) := by
  cases action with
  | fatal reason => cases plain
  | setCsrValue addr value => cases plain
  | returnFromTrapHandler mode => cases plain
  | setFpReg | setPc | setLrScCounter | hitBreakpoint | raiseFlags
  | setRoundingMode =>
      exact Guard.framed_modifies (fun _ => rfl) (fun _ => rfl)
        (fun _ => rfl) fun _ => rfl
  | fpSetDirty =>
      exact Machine.Framed.modifies fun hart _ =>
        ⟨Steady.fpSetDirty hart, fun _ => rfl⟩
  | fpUpdateExceptionFlags =>
      exact Machine.Framed.modifies fun hart _ =>
        ⟨Steady.fpUpdateExceptionFlags hart, fun _ => by
          rw [Hart.fpUpdateExceptionFlags]
          split <;> rfl⟩
  | setReg regIdx value =>
      exact inferInstanceAs <| Machine.Framed (guard.frame false) <|
        Machine.modifies fun hart => hart.setReg regIdx value
  | releaseLrScReservation =>
      exact releaseLrScReservation_framed fun _ _ =>
        guard.related_of_csrs true rfl rfl rfl rfl
  | executeSyscall =>
      exact inferInstanceAs <|
        Machine.Framed (guard.frame false) executeSyscall
  | _ => exact perform_service cfg rfl

end Rv32

end RiscvVp
