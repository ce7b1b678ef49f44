import RiscvVp.Amo.Faults
import RiscvVp.Rv32.Step

/-!
# The traps of the atomic operations of rv32

`execute_amo` relabels the access fault of its load.  The memory interface
raises page faults only, and these pass through.
-/

namespace RiscvVp

namespace Rv32

open Amo Interaction

/-! ## The memory interface -/

section Storeless

open Memory

variable (cfg : Config)

theorem storeless_call {α : Type} (question : Call)
    (quiet : StoresNoData question) (receive : Reply question → α) :
    Storeless Hart.regs (call question receive) :=
  Storeless.request quiet receive

instance (interrupts : List InterruptEvent) :
    Storeless Hart.regs (deliver interrupts) := by
  refine Storeless.modifies fun hart => ?_
  induction interrupts generalizing hart with
  | nil => rfl
  | cons event rest inductionHypothesis =>
      exact (inductionHypothesis _).trans (hart.interrupt_regs event)

instance (observation : Observation) :
    Storeless Hart.regs (observe observation) :=
  storeless_call (.observe observation) trivial id

instance : Storeless Hart.regs lock := by
  have locks (hartId : BitVec 32) := storeless_call (.lock hartId) trivial id
  unfold lock
  infer_instance

instance : Storeless Hart.regs isLocked := by
  have asks (hartId : BitVec 32) :=
    storeless_call (.isLocked hartId) trivial id
  unfold isLocked
  infer_instance

instance : Storeless Hart.regs waitForAccessRights := by
  have waits (hartId : BitVec 32) :=
    storeless_call (.waitForAccessRights hartId) trivial id
  unfold waitForAccessRights
  infer_instance

instance : Storeless Hart.regs atomicUnlock := by
  have unlocks (hartId : BitVec 32) :=
    storeless_call (.unlock hartId) trivial id
  unfold atomicUnlock
  infer_instance

instance (bytes : Nat) (addr : BitVec 64) :
    Storeless Hart.regs (readTransaction bytes addr) := by
  have reads := storeless_call (.read bytes addr) trivial id
  have raises : Storeless Hart.regs (Machine.raise ⟨.loadPageFault, addr⟩ :
      HartM (BitVec (8 * bytes))) :=
    Storeless.raise (.inl rfl)
  refine @Storeless.bind _ _ _ _ _ _ _ reads fun reply => ?_
  cases reply <;> infer_instance

/-- A store of the page walker. -/
instance (bytes : Nat) (addr : BitVec 64) (data : BitVec (8 * bytes)) :
    Storeless Hart.regs (writeTransaction .pte bytes addr data) := by
  have writes := storeless_call (.write .pte bytes addr data) trivial id
  have raises : Storeless Hart.regs (Machine.raise ⟨.storeAmoPageFault, addr⟩ :
      HartM Unit) :=
    Storeless.raise (.inr rfl)
  refine @Storeless.bind _ _ _ _ _ _ _ writes fun reply => ?_
  cases reply <;> infer_instance

instance (range : DmiRange) (bytes : Nat) (addr : BitVec 64) :
    Storeless Hart.regs (dmiLoad range bytes addr) := by
  have loads := storeless_call (.dmiLoad range bytes addr) trivial id
  unfold dmiLoad
  infer_instance

instance (range : DmiRange) (bytes : Nat) (addr : BitVec 64)
    (data : BitVec (8 * bytes)) :
    Storeless Hart.regs (dmiStore .pte range bytes addr data) := by
  have stores := storeless_call (.dmiStore .pte range bytes addr data) trivial id
  unfold dmiStore
  infer_instance

instance (bytes : Nat) (addr : BitVec 64) :
    Storeless Hart.regs (rawLoadData cfg bytes addr) := by
  unfold rawLoadData
  refine @Storeless.bind _ _ _ _ _ _ _ _ fun _ => ?_
  split <;> infer_instance

instance (bytes : Nat) (addr : BitVec 64) (data : BitVec (8 * bytes))
    (ranges : List DmiRange) :
    Storeless Hart.regs (dmiStores .pte bytes addr data ranges) := by
  induction ranges with
  | nil => exact inferInstanceAs (Storeless Hart.regs (pure ()))
  | cons range rest inductionHypothesis => exact Storeless.bind _ _

instance (bytes : Nat) (addr : BitVec 64) (data : BitVec (8 * bytes)) :
    Storeless Hart.regs (rawStoreData cfg .pte bytes addr data) := by
  unfold rawStoreData
  infer_instance

instance (question : Mmu.Call) :
    Storeless Hart.regs (answerMmu cfg question) := by
  cases question with
  | loadPte32 addr => exact Storeless.bind _ _
  | loadPte64 addr => exact Storeless.bind _ _
  | storePte32 addr value =>
      exact inferInstanceAs
        (Storeless Hart.regs (rawStoreData cfg .pte 4 addr value))

/-- A translation for a load or a store. -/
theorem storeless_v2p {type : MemoryAccessType} (data : type ≠ .fetch)
    (vaddr : BitVec 64) : Storeless Hart.regs (v2p cfg vaddr type) := by
  have runs (core : Mmu.Core) : Storeless Hart.regs
      (runMmu cfg (Mmu.translateVirtualToPhysicalAddr core vaddr type)) := by
    apply Storeless.embed
    · exact fun _ _ => rfl
    · exact fun tlb => translate_isPageFault core vaddr data tlb
  unfold v2p
  infer_instance

instance (vaddr : BitVec 64) : Storeless Hart.regs (v2p cfg vaddr .load) :=
  storeless_v2p cfg (by decide) vaddr

instance (vaddr : BitVec 64) : Storeless Hart.regs (v2p cfg vaddr .store) :=
  storeless_v2p cfg (by decide) vaddr

instance (bytes : Nat) (addr : BitVec 64) :
    Storeless Hart.regs (loadData cfg bytes addr) := by
  unfold loadData
  infer_instance

instance (addr : BitVec 64) :
    Storeless Hart.regs (atomicLoadWord cfg addr) := by
  have loads : Storeless Hart.regs (loadWord cfg addr) :=
    Storeless.bind _ _
  unfold atomicLoadWord
  infer_instance

end Storeless

/-! ## The store -/

section Settles

open Memory

variable (cfg : Config)

instance (bytes : Nat) (addr : BitVec 64) (data : BitVec (8 * bytes)) :
    Settles Hart.regs (writeTransaction .data bytes addr data) where
  settles surroundings world hart := by
    refine ⟨trivial, fun reply _ => ?_⟩
    cases reply with
    | ok value interrupts =>
        rintro _ _ ⟨⟩
    | error interrupts =>
        rintro _ _ ⟨⟩
        refine ⟨rfl, ?_, rfl⟩
        have delivered := (inferInstance : Storeless Hart.regs
          (deliver interrupts)).storeless hart
        exact delivered.1 _ rfl
    | fatal =>
        rintro _ _ ⟨⟩

/-- The bus is asked only when no range has taken the data. -/
instance (bytes : Nat) (addr : BitVec 64) (data : BitVec (8 * bytes)) :
    Settles Hart.regs (rawStoreData cfg .data bytes addr data) := by
  unfold rawStoreData
  have settles : Settles Hart.regs (do
      dmiStores .data bytes addr data
        (cfg.dmiRanges.filter (·.contains addr))
      if (cfg.dmiRanges.filter (·.contains addr)).isEmpty then
        writeTransaction .data bytes addr data
      atomicUnlock) := by
    cases cfg.dmiRanges.filter (·.contains addr) with
    | nil => exact Settles.bind_untrapped (writeTransaction .data bytes addr data) _
    | cons range rest =>
        exact Settles.of_untrapped
          (dmiStores .data bytes addr data (range :: rest) >>= fun _ =>
            atomicUnlock)
  exact Settles.storeless_bind _ _

end Settles

/-! ## The instruction -/

/-- What `execute_amo` reads of memory before it stores. -/
structure AmoOperands where
  data : BitVec 32
  operand : BitVec 32
  paddr : BitVec 64

/-- The word, the operand, and the page table entries that the translation of
the store needs. -/
def amoReads (cfg : Config) (instr : Instruction) (addr : BitVec 64) :
    HartM AmoOperands := do
  let data ← Memory.atomicLoadWord cfg addr
  let operand ← Machine.reads fun hart : Hart => hart.regs instr.rs2
  let locked ← Memory.isLocked
  Machine.assert locked .amoNotLocked
  let paddr ← Memory.v2p cfg addr .store
  pure ⟨data, operand, paddr⟩

section Instruction

variable (cfg : Config) (instr : Instruction)
  (operation : BitVec 32 → BitVec 32 → BitVec 32)

/-- The rest of it. -/
def amoRest (operands : AmoOperands) : HartM Unit := do
  Memory.rawStoreData cfg .data 4 operands.paddr
    (operation operands.data operands.operand)
  observe .amoEnds
  Machine.modifies fun hart => hart.setReg instr.rd operands.data

instance (operands : AmoOperands) :
    Settles Hart.regs (amoRest cfg instr operation operands) := by
  unfold amoRest
  exact Settles.bind_untrapped _ _

/-- `execute_amo` on an aligned address. -/
theorem executeAmo_apply {hart : Hart}
    (aligned : (hart.regs instr.rs1).toNat % 4 = 0) :
    Machine.answering (perform cfg) (Exec.executeAmo instr operation) hart =
      (Machine.catchTrap
        (Memory.atomicLoadWord cfg ((hart.regs instr.rs1).setWidth 64))
        (fun trap => Machine.raise (relabelled trap)) >>= fun data => do
          let operand ← Machine.reads fun hart : Hart => hart.regs instr.rs2
          let locked ← Memory.isLocked
          Machine.assert locked .amoNotLocked
          let paddr ← Memory.v2p cfg ((hart.regs instr.rs1).setWidth 64) .store
          amoRest cfg instr operation ⟨data, operand, paddr⟩) hart := by
  have check : Body.trapCheckAddrAlignment 4 false (hart.regs instr.rs1) =
      pure () :=
    if_neg (not_not.2 aligned)
  have load : perform cfg (.amoLoadWord ((hart.regs instr.rs1).setWidth 64)) =
      Machine.catchTrap
        (Memory.atomicLoadWord cfg ((hart.regs instr.rs1).setWidth 64))
        (fun trap => Machine.raise (relabelled trap)) := rfl
  change Machine.answering (perform cfg)
    (Body.trapCheckAddrAlignment 4 false (hart.regs instr.rs1) >>= fun _ => _)
      hart = _
  rw [check]
  change (perform cfg (.amoLoadWord ((hart.regs instr.rs1).setWidth 64)) >>=
    fun data => (Machine.reads fun hart : Hart => hart.regs instr.rs2) >>=
      fun operand => Memory.atomicStoreWord cfg
          ((hart.regs instr.rs1).setWidth 64) (operation data operand) >>=
        fun _ => Machine.modifies fun hart => hart.setReg instr.rd data)
          hart = _
  simp only [load, Memory.atomicStoreWord, Memory.storeData, amoRest,
    Machine.bind_assoc]

/-- The traps of an atomic operation are those of a store exactly when nothing
that it reads ends with a load page fault. -/
theorem executeAmo_faultsAsStore_iff {G : Type}
    (surroundings : Surroundings Reply G) (world : G) (hart : Hart) :
    FaultsAsStore Hart.regs
        (Machine.answering (perform cfg) (Exec.executeAmo instr operation))
        surroundings world hart ↔
      ((hart.regs instr.rs1).toNat % 4 = 0 →
        Loads (amoReads cfg instr ((hart.regs instr.rs1).setWidth 64))
          surroundings world hart) := by
  by_cases aligned : (hart.regs instr.rs1).toNat % 4 = 0
  · have loads : Storeless Hart.regs (Machine.catchTrap
        (Memory.atomicLoadWord cfg ((hart.regs instr.rs1).setWidth 64))
        fun trap => Machine.raise (relabelled trap)) :=
      Storeless.relabel isPageFault_relabelled _
    have reads : Storeless Hart.regs (Machine.catchTrap
        (Memory.atomicLoadWord cfg ((hart.regs instr.rs1).setWidth 64))
        (fun trap => Machine.raise (relabelled trap)) >>= fun data => do
          let operand ← Machine.reads fun hart : Hart => hart.regs instr.rs2
          let locked ← Memory.isLocked
          Machine.assert locked .amoNotLocked
          let paddr ← Memory.v2p cfg ((hart.regs instr.rs1).setWidth 64) .store
          pure (AmoOperands.mk data operand paddr)) :=
      Storeless.bind _ _
    rw [FaultsAsStore, executeAmo_apply cfg instr operation aligned,
      imp_iff_right aligned]
    refine Iff.trans (Iff.of_eq ?_) <|
      (faultsAsStore_bind_iff Hart.regs _ (amoRest cfg instr operation)).trans
        (loads_relabelled_bind_iff _ _)
    rw [FaultsAsStore]
    simp only [Machine.bind_assoc]
    rfl
  · refine iff_of_true ?_ fun isAligned => absurd isAligned aligned
    have check : Body.trapCheckAddrAlignment 4 false (hart.regs instr.rs1) =
        Body.raiseTrap .storeAmoAddrMisaligned
          ((hart.regs instr.rs1).setWidth 64) :=
      if_pos aligned
    change Program.Under _ _ (Machine.answering (perform cfg)
      (Body.trapCheckAddrAlignment 4 false (hart.regs instr.rs1) >>=
        fun _ => _) hart) _
    rw [check]
    rintro _ _ ⟨⟩
    exact ⟨.inl rfl, rfl, rfl⟩

/-- With the extension, an atomic operation is `execute_amo`. -/
theorem amo_apply {hart : Hart}
    (extension : hart.hasExtension Csr.Misa.a = true) :
    Machine.answering (perform cfg) (Exec.amo instr operation) hart =
      Machine.answering (perform cfg) (Exec.executeAmo instr operation)
        hart := by
  have present : (!Csr.Misa.has (hart.csrs .misa) Csr.Misa.a) ≠ true := by
    rw [show Csr.Misa.has (hart.csrs .misa) Csr.Misa.a = true from extension]
    decide
  change Machine.answering (perform cfg)
    ((if (!Csr.Misa.has (hart.csrs .misa) Csr.Misa.a) = true then
        Body.raiseIllegal instr else pure ()) >>= fun _ =>
      Exec.executeAmo instr operation) hart = _
  rw [if_neg present]
  rfl

/-- Every atomic operation is one of these. -/
theorem exists_amo {op : Mapping} (atomic : isAmo op = true) :
    ∃ operation, execute cfg instr op = Exec.amo instr operation := by
  cases op with
  | amoswapW | amoaddW | amoxorW | amoandW | amoorW | amominW | amominuW
  | amomaxW | amomaxuW => exact ⟨_, rfl⟩
  | _ => cases atomic

end Instruction

end Rv32

end RiscvVp
