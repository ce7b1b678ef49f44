import Mathlib
import RiscvVp.Rv32.Executed
import RiscvVp.Rv32.Platform

/-!
# What the lower modes own

The supervisor and user views of the interrupt registers are cut out by fixed
masks, which consult neither `mideleg` nor `sideleg`.  A CSR instruction in
supervisor or user mode therefore reaches every interrupt bit of the view of
its mode, delegated or not, and nothing else that belongs to machine mode:
no other interrupt bit, no machine-level field of `mstatus` and no other
machine-level register.
-/

namespace RiscvVp

namespace Rv32

open Bits Csr Interaction

/-! ## Ownership -/

/-- The fields `mie`, `mpie`, `mpp`, `mprv`, `tvm`, `tw` and `tsr` of
`mstatus`. -/
def machineStatusMask : BitVec 32 :=
  Mstatus.mie.mask ||| Mstatus.mpie.mask ||| Mstatus.mpp.mask |||
    Mstatus.mprv.mask ||| Mstatus.tvm.mask ||| Mstatus.tw.mask |||
    Mstatus.tsr.mask

/-- The machine-level registers, apart from `mstatus`, `mie` and `mip`, whose
bits have several owners.  `time` is a copy of the clock that every read
renews. -/
def Csr.Register.isMachineLevel : Register → Bool
  | .cycle | .cycleh | .instret | .instreth | .mvendorid | .marchid | .mimpid
  | .mhartid | .misa | .medeleg | .mideleg | .mtvec | .mcounteren
  | .mcountinhibit | .mscratch | .mepc | .mcause | .mtval | .pmpaddr _
  | .pmpcfg _ => true
  | _ => false

/-- Machine-owned state is kept, where a lower mode owns some of the enable
bits and some of the pending bits. -/
structure MachineStateKept (enables pendings : BitVec 32)
    (before after : Hart) : Prop where
  mie : after.csrs .mie &&& ~~~enables = before.csrs .mie &&& ~~~enables
  mip : after.csrs .mip &&& ~~~pendings = before.csrs .mip &&& ~~~pendings
  mstatus : after.csrs .mstatus &&& machineStatusMask =
    before.csrs .mstatus &&& machineStatusMask
  csr : ∀ register, register.isMachineLevel = true →
    after.csrs register = before.csrs register

/-- The interrupts that `mideleg`, and from user mode `sideleg`, delegate. -/
def Hart.delegated (hart : Hart) : BitVec 32 :=
  if hart.prv = userMode then hart.csrs .mideleg &&& hart.csrs .sideleg
  else hart.csrs .mideleg

/-- The enable bits in the view of a mode. -/
def enableView (mode : PrivilegeLevel) : BitVec 32 :=
  if mode = userMode then uieMask else sieMask

/-- The pending bits in the view of a mode. -/
def pendingView (mode : PrivilegeLevel) : BitVec 32 :=
  if mode = userMode then uipMask else sipMask

/-- The two modes below machine mode. -/
def isLower (mode : PrivilegeLevel) : Prop :=
  mode = supervisorMode ∨ mode = userMode

namespace MachineStateKept

variable {enables pendings : BitVec 32} {before after : Hart}

theorem refl (hart : Hart) : MachineStateKept enables pendings hart hart :=
  ⟨rfl, rfl, rfl, fun _ _ => rfl⟩

theorem trans {first second third : Hart}
    (left : MachineStateKept enables pendings first second)
    (right : MachineStateKept enables pendings second third) :
    MachineStateKept enables pendings first third where
  mie := right.mie.trans left.mie
  mip := right.mip.trans left.mip
  mstatus := right.mstatus.trans left.mstatus
  csr register machine :=
    (right.csr register machine).trans (left.csr register machine)

theorem of_csrs (csrs : after.csrs = before.csrs) :
    MachineStateKept enables pendings before after := by
  constructor <;> simp [csrs]

/-- A register whose bits have one owner, and not machine mode. -/
theorem setCsr (hart : Hart) {register : Register} (word : BitVec 32)
    (shared : register ≠ .mie ∧ register ≠ .mip ∧ register ≠ .mstatus)
    (lower : register.isMachineLevel = false) :
    MachineStateKept enables pendings hart (hart.setCsr register word) where
  mie := by rw [Hart.setCsr_csrs, CsrTable.set_of_ne _ _ shared.1.symm]
  mip := by rw [Hart.setCsr_csrs, CsrTable.set_of_ne _ _ shared.2.1.symm]
  mstatus := by rw [Hart.setCsr_csrs, CsrTable.set_of_ne _ _ shared.2.2.symm]
  csr other machine := by
    refine CsrTable.set_of_ne _ _ ?_
    rintro rfl
    rw [lower] at machine
    cases machine

/-- What a masked write leaves outside a wider mask. -/
theorem writeMasked_and_not {allowed mask : BitVec 32}
    (narrower : Within allowed mask) (old value : BitVec 32) :
    writeMasked old value mask &&& ~~~allowed = old &&& ~~~allowed := by
  apply BitVec.eq_of_getLsbD_eq
  intro i bounded
  rw [BitVec.getLsbD_and, BitVec.getLsbD_and, getLsbD_writeMasked,
    BitVec.getLsbD_not]
  split
  next bit => simp [(within_iff _ _).1 narrower i bit]
  next => rfl

end MachineStateKept

/-! ## Writes -/

/-- The level that a CSR address belongs to. -/
def csrLevel (addr : BitVec 32) : PrivilegeLevel := (0x300 &&& addr) >>> 8

section Writes

variable {mode : PrivilegeLevel} {addr : BitVec 32} {register : Register}

/-- A register below machine level whose bits have one owner. -/
def Csr.Register.isLower (register : Register) : Prop :=
  (register ≠ .mie ∧ register ≠ .mip ∧ register ≠ .mstatus) ∧
    register.isMachineLevel = false

instance (register : Register) : Decidable register.isLower :=
  inferInstanceAs (Decidable (_ ∧ _))

/-- What the masked writes of a lower mode reach. -/
theorem lower_masked_cases {mask : BitVec 32} (lower : isLower mode)
    (level : csrLevel addr ≤ mode)
    (access : writeAccess addr = .masked register mask) :
    register.isLower ∨
      (register = .mie ∧ Within (enableView mode) mask) ∨
      (register = .mip ∧ Within (pendingView mode) mask) ∨
      (register = .mstatus ∧ Within (~~~machineStatusMask) mask) := by
  unfold writeAccess at access
  split at access
  case h_29 =>
    split at access
    · cases access
    split at access
    · cases access
    · cases access
  all_goals
    first
    | (cases access; done)
    | (cases access
       rcases lower with rfl | rfl <;> revert level <;> decide)

theorem lower_exceptionPc (lower : isLower mode) (level : csrLevel addr ≤ mode)
    (access : writeAccess addr = .exceptionPc register) :
    register.isLower := by
  unfold writeAccess at access
  split at access
  case h_29 =>
    split at access
    · cases access
    split at access
    · cases access
    · cases access
  all_goals
    first
    | (cases access; done)
    | (cases access
       rcases lower with rfl | rfl <;> revert level <;> decide)

/-- The physical memory protection registers belong to machine mode. -/
theorem csrLevel_pmp {first : BitVec 32} {count : Nat}
    (block : first = 0x3B0 ∧ count = 16 ∨ first = 0x3A0 ∧ count = 4)
    (inside : first ≤ addr ∧ addr < first + BitVec.ofNat 32 count) :
    csrLevel addr = machineMode := by
  have levels : ∀ offset : Fin 16,
      csrLevel (0x3B0 + BitVec.ofNat 32 offset.val) = machineMode ∧
        csrLevel (0x3A0 + BitVec.ofNat 32 offset.val) = machineMode := by
    decide
  have offset (size : Nat) (small : size ≤ 16) (bound : first.toNat < 2 ^ 31)
      (below : addr.toNat < first.toNat + size) :
      ∃ offset : Fin 16, addr = first + BitVec.ofNat 32 offset.val := by
    have above : first.toNat ≤ addr.toNat := inside.1
    refine ⟨⟨addr.toNat - first.toNat, by omega⟩, ?_⟩
    apply BitVec.eq_of_toNat_eq
    rw [BitVec.toNat_add, BitVec.toNat_ofNat]
    dsimp only
    omega
  rcases block with ⟨rfl, rfl⟩ | ⟨rfl, rfl⟩
  · obtain ⟨place, rfl⟩ := offset 16 (by decide) (by decide) inside.2
    exact (levels place).1
  · obtain ⟨place, rfl⟩ := offset 4 (by decide) (by decide) inside.2
    exact (levels place).2

/-- The registers that an address of the mode names. -/
theorem lower_mapped (lower : isLower mode) (level : csrLevel addr ≤ mode)
    (writable : isReadOnly addr = false)
    (mapped : registerMapping addr = some register) : register.isLower := by
  have below : csrLevel addr ≠ machineMode := by
    intro machine
    rw [machine] at level
    rcases lower with rfl | rfl <;> revert level <;> decide
  unfold registerMapping at mapped
  split at mapped
  case h_45 =>
    split at mapped
    next inside => exact absurd (csrLevel_pmp (.inl ⟨rfl, rfl⟩) inside) below
    split at mapped
    next inside => exact absurd (csrLevel_pmp (.inr ⟨rfl, rfl⟩) inside) below
    · cases mapped
  all_goals
    cases mapped
    first
    | decide
    | exact absurd (by decide) below
    | exact absurd writable (by decide)

/-- A write at an address of the mode keeps what belongs to machine mode. -/
theorem Csr.Writes.machineStateKept {value : BitVec 32} {hart after : Hart}
    (writes : Writes addr value hart after) (lower : isLower mode)
    (level : csrLevel addr ≤ mode) (writable : isReadOnly addr = false) :
    MachineStateKept (enableView mode) (pendingView mode) hart after := by
  have owned {register : Register} (word : BitVec 32)
      (own : register.isLower) :
      MachineStateKept (enableView mode) (pendingView mode) hart
        (hart.setCsr register word) :=
    .setCsr hart word own.1 own.2
  cases writes with
  | ignored access => exact .refl hart
  | masked access =>
      rcases lower_masked_cases lower level access with
        own | ⟨rfl, narrower⟩ | ⟨rfl, narrower⟩ | ⟨rfl, outside⟩
      · exact owned _ own
      · refine ⟨?_, rfl, rfl, fun other machine => ?_⟩
        · rw [Hart.setCsr_csrs, CsrTable.set_same]
          exact MachineStateKept.writeMasked_and_not narrower _ _
        · refine CsrTable.set_of_ne _ _ ?_
          rintro rfl
          cases machine
      · refine ⟨rfl, ?_, rfl, fun other machine => ?_⟩
        · rw [Hart.setCsr_csrs, CsrTable.set_same]
          exact MachineStateKept.writeMasked_and_not narrower _ _
        · refine CsrTable.set_of_ne _ _ ?_
          rintro rfl
          cases machine
      · refine ⟨rfl, rfl, ?_, fun other machine => ?_⟩
        · have kept := MachineStateKept.writeMasked_and_not outside
            (hart.csrs .mstatus) value
          rw [BitVec.not_not] at kept
          rw [Hart.setCsr_csrs, CsrTable.set_same]
          exact kept
        · refine CsrTable.set_of_ne _ _ ?_
          rintro rfl
          cases machine
  | exceptionPc access => exact owned _ (lower_exceptionPc lower level access)
  | field access =>
      obtain rfl := field_cases access
      exact owned _ (by decide)
  | satp access => exact owned _ (by decide)
  | default access mapped =>
      exact owned _ (lower_mapped lower level writable mapped)

end Writes

/-! ## CSR instructions -/

/-- What the body of a CSR instruction may do, given the check it has made:
read after any check of its register, and write after a check for writing. -/
def csrPermits (instr : Instruction) (checked : Option Bool) : Action → Prop
  | .reg _ | .setReg _ _ | .pipeline _ | .raiseTrap _ _ => True
  | .isInvalidCsrAccess addr _ => addr = instr.csr
  | .getCsrValue addr => addr = instr.csr ∧ checked ≠ none
  | .setCsrValue addr _ => addr = instr.csr ∧ checked = some true
  | _ => False

/-- The check that has been passed after an action. -/
def csrAfter (checked : Option Bool) :
    (action : Action) → action.Answer → Option Bool
  | .isInvalidCsrAccess _ isWrite, isInvalid =>
      if isInvalid = false then some isWrite else checked
  | _, _ => checked

/-- The monitor of a CSR instruction. -/
def checking (instr : Instruction) :
    Monitor Action.Answer (Option Bool) where
  requires := csrPermits instr
  allows _ _ _ := True
  next := csrAfter

attribute [local simp] csrPermits csrAfter

section Discipline

open Body Program

variable {α : Type} {instr : Instruction} {checked : Option Bool}

theorem csr_under_act (action : Action) (receive : action.Answer → α)
    (property : Option Bool → α → Prop) :
    (act action receive).Under (checking instr) checked property ↔
      csrPermits instr checked action ∧ ∀ reply,
        property (csrAfter checked action reply) (receive reply) := by
  simp [act, ask, under_call, checking]

theorem csr_under_raiseIllegal (property : Option Bool → α → Prop) :
    (raiseIllegal instr).Under (checking instr) checked property := by
  rw [raiseIllegal, raiseTrap, under_call]
  exact ⟨trivial, fun never => by cases never⟩

theorem csr_under_ite (condition : Prop) [Decidable condition]
    (first second : Body α) (property : Option Bool → α → Prop) :
    (if condition then first else second).Under (checking instr) checked
        property ↔
      (condition → first.Under (checking instr) checked property) ∧
        (¬ condition →
          second.Under (checking instr) checked property) := by
  by_cases holds : condition <;> simp [holds]

end Discipline

namespace Exec

open Body Program

variable (cfg : Config) (instr : Instruction)

theorem csrrw_under :
    (csrrw cfg instr).Under (checking instr) none fun _ _ => True := by
  simp [csrrw, isInvalidCsrAccess, getCsrValue, setCsrValue, doCsr, Body.read,
    write, accessRegister, reg, setReg, under_bind, csr_under_act,
    csr_under_ite, csr_under_raiseIllegal, csrPermits, csrAfter]

theorem csrModify_under (f : BitVec 32 → BitVec 32 → BitVec 32) :
    (csrModify cfg instr f).Under (checking instr) none
      fun _ _ => True := by
  by_cases writes : instr.rs1 = 0#5 <;>
    simp [csrModify, isInvalidCsrAccess, getCsrValue, setCsrValue, doCsr,
      Body.read, write, accessRegister, reg, setReg, under_bind,
      csr_under_act, csr_under_ite, csr_under_raiseIllegal, csrPermits,
      csrAfter, writes]

theorem csrrwi_under :
    (csrrwi cfg instr).Under (checking instr) none fun _ _ => True := by
  simp [csrrwi, isInvalidCsrAccess, getCsrValue, setCsrValue, doCsr, write,
    accessRegister, setReg, under_bind, csr_under_act, csr_under_ite,
    csr_under_raiseIllegal, csrPermits, csrAfter]

theorem csrModifyImmediate_under (f : BitVec 32 → BitVec 32 → BitVec 32) :
    (csrModifyImmediate cfg instr f).Under (checking instr) none
      fun _ _ => True := by
  by_cases writes : instr.zimm = 0#32 <;>
    simp [csrModifyImmediate, isInvalidCsrAccess, getCsrValue, setCsrValue,
      doCsr, write, accessRegister, setReg, under_bind, csr_under_act,
      csr_under_ite, csr_under_raiseIllegal, csrPermits, csrAfter,
      writes]

end Exec

/-- Every CSR instruction checks its register before it uses it. -/
theorem execute_checking (cfg : Config) (instr : Instruction)
    {op : Mapping} (csr : isCsr op = true) :
    (execute cfg instr op).Under (checking instr) none
      fun _ _ => True := by
  cases op with
  | csrrw => exact Exec.csrrw_under cfg instr
  | csrrs => exact Exec.csrModify_under cfg instr _
  | csrrc => exact Exec.csrModify_under cfg instr _
  | csrrwi => exact Exec.csrrwi_under cfg instr
  | csrrsi => exact Exec.csrModifyImmediate_under cfg instr _
  | csrrci =>
      exact Exec.csrModifyImmediate_under cfg instr fun csr value =>
        csr &&& ~~~value
  | _ => cases csr

/-! ## Reads -/

/-- The frame of the reads: machine-owned state is kept to the last bit. -/
def reading : Frame Hart Fatal where
  pre _ := True
  related before after :=
    after.prv = before.prv ∧ MachineStateKept 0 0 before after
  refl hart := ⟨rfl, .refl hart⟩
  trans left right := ⟨right.1.trans left.1, left.2.trans right.2⟩
  stable _ _ := trivial
  aborts _ := True

/-- Only machine mode has an address that copies the cycle counter. -/
theorem csrLevel_of_cycle {addr : BitVec 32} {high : Bool}
    (access : readAccess addr = .cycle high) :
    csrLevel addr = machineMode := by
  unfold readAccess at access
  split at access
  case h_23 =>
    split at access
    · cases access
    split at access
    · cases access
    · cases access
  all_goals
    first
    | (cases access; done)
    | decide

theorem getCsrValue_reading (cfg : Config) {addr : BitVec 32}
    (lower : csrLevel addr ≠ machineMode) :
    Machine.Framed reading (getCsrValue cfg addr) := by
  have renewed (value : BitVec 64) : Machine.Framed reading
      (Machine.modifies fun hart =>
        { hart with csrs := hart.csrs.set64 .time .timeh value } :
        HartM Unit) := by
    refine Machine.Framed.modifies fun hart _ => ⟨rfl, ?_⟩
    have first : MachineStateKept 0 0 hart
        (hart.setCsr .time (value.extractLsb' 0 32)) :=
      .setCsr hart _ (by decide) rfl
    exact first.trans <|
      @MachineStateKept.setCsr 0 0 _ .timeh _ (by decide) rfl
  unfold getCsrValue
  refine @Machine.Framed.bind _ _ _ _ _ _ _ _ _ _ _ fun _ => ?_
  split
  case h_2 _ access => exact absurd (csrLevel_of_cycle access) lower
  all_goals infer_instance

/-- What is kept for a mode with nothing of its own is kept for any. -/
theorem MachineStateKept.mono {before after : Hart}
    (kept : MachineStateKept 0 0 before after) (enables pendings : BitVec 32) :
    MachineStateKept enables pendings before after := by
  have whole (word : BitVec 32) : word &&& ~~~0 = word := BitVec.and_allOnes
  have mie := kept.mie
  have mip := kept.mip
  rw [whole, whole] at mie mip
  exact ⟨by rw [mie], by rw [mip], kept.mstatus, kept.csr⟩

/-! ## Execution -/

/-- Where the body of a CSR instruction stands. -/
structure ViewStanding (instr : Instruction) (before : Hart)
    (checked : Option Bool) (hart : Hart) : Prop where
  prv : hart.prv = before.prv
  kept : MachineStateKept (enableView before.prv) (pendingView before.prv)
    before hart
  passed : ∀ isWrite, checked = some isWrite →
    csrLevel instr.csr ≤ before.prv ∧
      (isWrite = true → isReadOnly instr.csr = false)

theorem level_of_invalidCsrAccess {hart : Hart} {addr : BitVec 32}
    {isWrite : Bool} (valid : invalidCsrAccess hart addr isWrite = false) :
    csrLevel addr ≤ hart.prv := by
  unfold invalidCsrAccess at valid
  simp only [Bool.or_eq_false_iff, decide_eq_false_iff_not] at valid
  exact BitVec.not_lt.1 valid.1.1.2

section Perform

variable (cfg : Config) {instr : Instruction} {before hart : Hart}
  {checked : Option Bool}

theorem perform_viewStanding (lower : isLower before.prv)
    (standing : ViewStanding instr before checked hart) {action : Action}
    (permitted : csrPermits instr checked action) :
    (perform cfg action hart).All fun outcome => ∀ answer after,
      outcome = .done answer after →
        ViewStanding instr before (csrAfter checked action answer) after := by
  have notMachine {level : PrivilegeLevel} (below : level ≤ before.prv) :
      level ≠ machineMode := by
    rintro rfl
    rcases lower with mode | mode <;> rw [mode] at below <;>
      revert below <;> decide
  cases action with
  | reg regIdx =>
      rintro answer after ⟨⟩
      exact standing
  | setReg regIdx value =>
      rintro answer after ⟨⟩
      exact ⟨standing.prv, standing.kept.trans (.of_csrs rfl),
        standing.passed⟩
  | raiseTrap reason mtval =>
      rintro answer after ⟨⟩
  | pipeline event =>
      rw [perform, advancePipeline, Machine.all_bind, Machine.reads_apply,
        Program.all_ret]
      dsimp only
      cases event.apply hart.pipeline with
      | some pipeline =>
          rintro answer after ⟨⟩
          exact ⟨standing.prv, standing.kept.trans (.of_csrs rfl),
            standing.passed⟩
      | none => rintro answer after ⟨⟩
  | isInvalidCsrAccess addr isWrite =>
      rw [perform, isInvalidCsrAccess_apply]
      split
      · rintro answer after ⟨⟩
      · rintro answer after ⟨⟩
        refine ⟨standing.prv, standing.kept, fun isWrite' passed => ?_⟩
        rw [csrAfter] at passed
        split at passed
        next valid =>
          cases passed
          rw [← (permitted : addr = instr.csr)]
          refine ⟨standing.prv ▸ level_of_invalidCsrAccess valid, ?_⟩
          rintro rfl
          exact isReadOnly_of_invalidCsrAccess valid
        next => exact standing.passed isWrite' passed
  | getCsrValue addr =>
      obtain ⟨rfl, read⟩ := permitted
      obtain ⟨isWrite, passed⟩ := Option.ne_none_iff_exists'.1 read
      have level := (standing.passed isWrite passed).1
      refine ((getCsrValue_reading cfg (notMachine level)).framed hart
        trivial).mono fun outcome within answer after same => ?_
      subst same
      obtain ⟨prv, kept⟩ := (Frame.post_done _ _ _ _).1 within
      exact ⟨prv.trans standing.prv, standing.kept.trans (kept.mono _ _),
        standing.passed⟩
  | setCsrValue addr value =>
      obtain ⟨rfl, passed⟩ := permitted
      obtain ⟨level, writable⟩ := standing.passed true passed
      rw [perform]
      rcases setCsrValue_outcome instr.csr value hart with
        ⟨written, equation, writes⟩ | ⟨trap, equation, _⟩
      · rw [equation]
        rintro answer after ⟨⟩
        exact ⟨writes.prv.trans standing.prv,
          standing.kept.trans <|
            writes.machineStateKept lower level (writable rfl),
          standing.passed⟩
      · rw [equation]
        rintro answer after ⟨⟩
  | _ => exact permitted.elim

/-- Machine-owned state is kept by an instruction that completes. -/
def CompletionKeeps (enables pendings : BitVec 32) (before : Hart)
    (outcome : Outcome Hart SimulationTrap Fatal Unit) : Prop :=
  ∀ after, outcome = .done () after →
    MachineStateKept enables pendings before after

/-- A completed CSR instruction of a lower mode changes nothing outside the
views of the mode. -/
theorem execute_csr_kept {op : Mapping} (lower : isLower before.prv)
    (csr : isCsr op = true) :
    (Machine.answering (perform cfg) (execute cfg instr op) before).All
      (CompletionKeeps (enableView before.prv) (pendingView before.prv)
        before) := by
  rw [← Program.under_any _ fun _ => CompletionKeeps (enableView before.prv)
    (pendingView before.prv) before]
  refine Machine.answering_under (perform cfg)
    (fun checked hart _ => ViewStanding instr before checked hart) ?_
    (execute_checking cfg instr csr) ⟨rfl, .refl before, nofun⟩ ?_
  · intro checked hart _ action standing permitted
    rw [Program.under_any]
    refine (perform_viewStanding cfg lower standing permitted).mono
      fun outcome stands => ?_
    cases outcome with
    | done answer after => exact ⟨trivial, stands answer after rfl⟩
    | trap cause after =>
        intro last same
        cases same
    | abort reason =>
        intro last same
        cases same
  · intro _ hart _ _ _ standing after same
    cases same
    exact standing.kept

end Perform

/-! ## The views -/

/-- `SIP_ADDR`, `SIE_ADDR`, `UIP_ADDR` and `UIE_ADDR` -/
def isInterruptView (addr : BitVec 32) : Prop :=
  addr = 0x144 ∨ addr = 0x104 ∨ addr = 0x044 ∨ addr = 0x004

/-- Two states that differ in interrupt bits of others only. -/
structure AgreeOnOwned (enables pendings : BitVec 32) (left right : Hart) :
    Prop where
  prv : left.prv = right.prv
  csr : ∀ register, register ≠ .mie → register ≠ .mip →
    left.csrs register = right.csrs register
  mie : left.csrs .mie &&& enables = right.csrs .mie &&& enables
  mip : left.csrs .mip &&& pendings = right.csrs .mip &&& pendings

/-- A CSR instruction respects machine-owned state, and what the views show
does not depend on it, when the lower mode owns some of the interrupt bits. -/
structure RespectsOwner (cfg : Config) (enables pendings : BitVec 32)
    (decoded : Hart) : Prop where
  writes : (Machine.answering (perform cfg)
    (execute cfg decoded.instr decoded.op) decoded).All
      (CompletionKeeps enables pendings decoded)
  reads : ∀ other addr, AgreeOnOwned enables pendings decoded other →
    isInterruptView addr → csrLevel addr ≤ decoded.prv →
      ∃ value, getCsrValue cfg addr decoded = .ret (.done value decoded) ∧
        getCsrValue cfg addr other = .ret (.done value other)

section Views

variable (cfg : Config) {hart left right : Hart}

/-- The four addresses read a register through a mask. -/
theorem getCsrValue_view {addr mask : BitVec 32} {register : Register}
    (view : isInterruptView addr)
    (access : readAccess addr = .masked register mask) :
    getCsrValue cfg addr hart =
      .ret (.done (hart.csrs register &&& mask) hart) := by
  have unguarded : isGuardedCounter addr = false := by
    rcases view with rfl | rfl | rfl | rfl <;> decide
  simp [getCsrValue, validateCsrCounterReadAccessRights, unguarded, access]

/-- Agreement on a mask is agreement on a narrower one. -/
theorem and_eq_of_within {allowed mask first second : BitVec 32}
    (narrower : Within allowed mask)
    (same : first &&& allowed = second &&& allowed) :
    first &&& mask = second &&& mask := by
  have inside : allowed &&& mask = mask := by
    apply BitVec.eq_of_getLsbD_eq
    intro i _
    rw [BitVec.getLsbD_and]
    cases bit : mask.getLsbD i with
    | false => simp
    | true => simp [(within_iff _ _).1 narrower i bit]
  rw [← inside, ← BitVec.and_assoc, ← BitVec.and_assoc, same]

/-- What a view shows is determined by the fixed mask of the mode. -/
theorem views_agree {addr : BitVec 32} (lower : isLower left.prv)
    (agree : AgreeOnOwned (enableView left.prv) (pendingView left.prv) left
      right)
    (view : isInterruptView addr) (level : csrLevel addr ≤ left.prv) :
    ∃ value, getCsrValue cfg addr left = .ret (.done value left) ∧
      getCsrValue cfg addr right = .ret (.done value right) := by
  have shown {register : Register} {mask : BitVec 32}
      (access : readAccess addr = .masked register mask)
      (same : left.csrs register &&& mask = right.csrs register &&& mask) :
      ∃ value, getCsrValue cfg addr left = .ret (.done value left) ∧
        getCsrValue cfg addr right = .ret (.done value right) := by
    refine ⟨_, getCsrValue_view cfg view access, ?_⟩
    rw [getCsrValue_view cfg view access, same]
  have supervisor (above : csrLevel addr = supervisorMode) :
      left.prv = supervisorMode := by
    rcases lower with mode | mode
    · exact mode
    · rw [above, mode] at level
      exact absurd level (by decide)
  have pending : Within (pendingView left.prv) uipMask ∧
      Within (enableView left.prv) uieMask := by
    rcases lower with mode | mode <;> rw [mode] <;> decide
  rcases view with rfl | rfl | rfl | rfl
  · have mode := supervisor (by decide)
    refine @shown .mip sipMask rfl ?_
    have same := agree.mip
    rwa [mode] at same
  · have mode := supervisor (by decide)
    refine @shown .mie sieMask rfl ?_
    have same := agree.mie
    rwa [mode] at same
  · exact shown rfl (and_eq_of_within pending.1 agree.mip)
  · exact shown rfl (and_eq_of_within pending.2 agree.mie)

/-- A CSR instruction in supervisor or user mode respects everything but the
bits in the views of its mode. -/
theorem respectsOwner_views {decoded : Hart} (lower : isLower decoded.prv)
    (csr : isCsr decoded.op = true) :
    RespectsOwner cfg (enableView decoded.prv) (pendingView decoded.prv)
      decoded where
  writes := execute_csr_kept cfg lower csr
  reads _ _ agree view level := views_agree cfg lower agree view level

end Views

/-- `CSRRSI` on `sie` in supervisor mode. -/
theorem respectsOwner_enableInSupervisorMode :
    RespectsOwner Platform.config sieMask sipMask
      { Hart.reset 0 false 0 0 with
        prv := supervisorMode
        op := .csrrsi
        instr := 0x10416073 } :=
  @respectsOwner_views Platform.config
    { Hart.reset 0 false 0 0 with
      prv := supervisorMode
      op := .csrrsi
      instr := 0x10416073 } (.inl rfl) rfl

/-- Leave for supervisor mode with an `MRET`, with nothing delegated, and
enable the supervisor software interrupt there. -/
def enableInSupervisorMode : List (BitVec 32) :=
  [0x000010b7, 0x80008093, 0x30009073, 0x01800113, 0x34111073, 0x30200073,
    0x10416073]

/-- The instruction that is decoded changes an enable bit in supervisor mode
that has not been delegated. -/
def changesUndelegated (before decoded : Hart) (later : Platform) : Bool :=
  match (Machine.answering (perform Platform.config)
    (execute Platform.config decoded.instr decoded.op)
    decoded).run Platform.handle later with
  | (.done _ after, _) =>
      before.regs 0 == 0#32 && !before.debugMode &&
        decide (decoded.prv = supervisorMode) &&
        isCsr decoded.op &&
        decide (after.csrs .mie &&& ~~~decoded.delegated ≠
          decoded.csrs .mie &&& ~~~decoded.delegated)
  | _ => false

def changesUndelegatedNext (reached : Hart × Platform) : Bool :=
  match (issue Platform.config reached.1.starting).run
    Platform.handle reached.2 with
  | (.done _ decoded, later) => changesUndelegated reached.1 decoded later
  | _ => false

/-- A CSR instruction in supervisor mode sets an enable bit that has not been
delegated. -/
theorem not_respectsOwner_delegated :
    ¬ ∀ (cfg : Config) (world later : Platform) (hart decoded : Hart),
      Reachable cfg Platform.surroundings world hart → hart.begins →
        (issue cfg hart.starting).ReachesIn Platform.surroundings world later
          (.done () decoded) →
        isLower decoded.prv → isCsr decoded.op = true →
          RespectsOwner cfg decoded.delegated decoded.delegated decoded := by
  intro respected
  have executes :
      (Platform.execution (fun _ => true) enableInSupervisorMode 6).any
        changesUndelegatedNext = true := by
    decide +kernel
  obtain ⟨⟨hart, world⟩, executed, checked⟩ :=
    (Option.any_eq_true _ _).1 executes
  unfold changesUndelegatedNext at checked
  split at checked
  next decoded later issued =>
    unfold changesUndelegated at checked
    split at checked
    next after last ran =>
      simp only [Bool.and_eq_true, decide_eq_true_eq, beq_iff_eq,
        Bool.not_eq_true']
        at checked
      obtain ⟨⟨⟨⟨zero, plain⟩, mode⟩, csr⟩, changed⟩ := checked
      have run : Reachable Platform.config Platform.surroundings world hart :=
        (Platform.run_of_execution executed).mono fun _ _ => trivial
      have kept := (respected Platform.config world later hart decoded run
        ⟨zero, by rw [plain]; rfl⟩
        ((Program.reachesIn_of _ _ _ _ _).2 issued) (.inl mode) csr).writes
      have completed := kept.run Platform.handle later
      rw [ran] at completed
      exact changed (completed after rfl).mie
    next => cases checked
  next => cases checked

end Rv32

end RiscvVp
