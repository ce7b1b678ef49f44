import RiscvVp.Rv32.AmoFault
import RiscvVp.Rv32.Platform
import RiscvVp.Rv64.Memory

/-!
# The traps of the atomic operations

The atomic operations of the 64-bit core are built like those of the 32-bit
core, and fail in the same way: the load of the word is a load to the MMU and
to the bus, and `execute_amo` relabels an access fault that neither of them
raises.
-/

namespace RiscvVp

namespace Rv64

open Amo Interaction
open Rv32 (Call DmiRange Reply StoreKind)

/-! ## The memory interface -/

section Storeless

open Memory

variable (cfg : Config)

theorem storeless_call {α : Type} (question : Call)
    (quiet : StoresNoData question) (receive : Reply question → α) :
    Storeless Hart.regs (call question receive) :=
  Storeless.request quiet receive

instance : Storeless Hart.regs lock := by
  have locks (hartId : BitVec 32) := storeless_call (.lock hartId) trivial id
  unfold lock
  infer_instance

instance : Storeless Hart.regs isLocked := by
  have asks (hartId : BitVec 32) :=
    storeless_call (.isLocked hartId) trivial id
  unfold isLocked
  infer_instance

instance : Storeless Hart.regs waitForAccessRights := by
  have waits (hartId : BitVec 32) :=
    storeless_call (.waitForAccessRights hartId) trivial id
  unfold waitForAccessRights
  infer_instance

instance : Storeless Hart.regs atomicUnlock := by
  have unlocks (hartId : BitVec 32) :=
    storeless_call (.unlock hartId) trivial id
  unfold atomicUnlock
  infer_instance

instance (bytes : Nat) (addr : BitVec 64) :
    Storeless Hart.regs (readTransaction bytes addr) := by
  have reads := storeless_call (.read bytes addr) trivial id
  have raises : Storeless Hart.regs (Machine.raise ⟨.loadPageFault, addr⟩ :
      HartM (BitVec (8 * bytes))) :=
    Storeless.raise (.inl rfl)
  refine @Storeless.bind _ _ _ _ _ _ _ reads fun reply => ?_
  cases reply <;> infer_instance

/-- A store of the page walker. -/
instance (bytes : Nat) (addr : BitVec 64) (data : BitVec (8 * bytes)) :
    Storeless Hart.regs (writeTransaction .pte bytes addr data) := by
  have writes := storeless_call (.write .pte bytes addr data) trivial id
  have raises : Storeless Hart.regs (Machine.raise ⟨.storeAmoPageFault, addr⟩ :
      HartM Unit) :=
    Storeless.raise (.inr rfl)
  refine @Storeless.bind _ _ _ _ _ _ _ writes fun reply => ?_
  cases reply <;> infer_instance

instance (range : DmiRange) (bytes : Nat) (addr : BitVec 64) :
    Storeless Hart.regs (dmiLoad range bytes addr) := by
  have loads := storeless_call (.dmiLoad range bytes addr) trivial id
  unfold dmiLoad
  infer_instance

instance (range : DmiRange) (bytes : Nat) (addr : BitVec 64)
    (data : BitVec (8 * bytes)) :
    Storeless Hart.regs (dmiStore .pte range bytes addr data) := by
  have stores := storeless_call (.dmiStore .pte range bytes addr data) trivial id
  unfold dmiStore
  infer_instance

instance (bytes : Nat) (addr : BitVec 64) :
    Storeless Hart.regs (rawLoadData cfg bytes addr) := by
  unfold rawLoadData
  refine @Storeless.bind _ _ _ _ _ _ _ _ fun _ => ?_
  split <;> infer_instance

instance (bytes : Nat) (addr : BitVec 64) (data : BitVec (8 * bytes))
    (ranges : List DmiRange) :
    Storeless Hart.regs (dmiStores .pte bytes addr data ranges) := by
  induction ranges with
  | nil => exact inferInstanceAs (Storeless Hart.regs (pure ()))
  | cons range rest inductionHypothesis => exact Storeless.bind _ _

instance (bytes : Nat) (addr : BitVec 64) (data : BitVec (8 * bytes)) :
    Storeless Hart.regs (rawStoreData cfg .pte bytes addr data) := by
  unfold rawStoreData
  infer_instance

instance (question : Mmu.Call) :
    Storeless Hart.regs (answerMmu cfg question) := by
  cases question with
  | loadPte32 addr => exact Storeless.bind _ _
  | loadPte64 addr => exact Storeless.bind _ _
  | storePte32 addr value =>
      exact inferInstanceAs
        (Storeless Hart.regs (rawStoreData cfg .pte 4 addr value))

/-- A translation for a load or a store. -/
theorem storeless_v2p {type : MemoryAccessType} (data : type ≠ .fetch)
    (vaddr : BitVec 64) : Storeless Hart.regs (v2p cfg vaddr type) := by
  have runs (core : Mmu.Core) : Storeless Hart.regs
      (Machine.embed (answerMmu cfg) Hart.tlb
        (fun tlb hart => { hart with tlb := tlb })
        (Mmu.translateVirtualToPhysicalAddr core vaddr type)) := by
    apply Storeless.embed
    · exact fun _ _ => rfl
    · exact fun tlb => translate_isPageFault core vaddr data tlb
  unfold v2p
  infer_instance

instance (vaddr : BitVec 64) : Storeless Hart.regs (v2p cfg vaddr .load) :=
  storeless_v2p cfg (by decide) vaddr

instance (vaddr : BitVec 64) : Storeless Hart.regs (v2p cfg vaddr .store) :=
  storeless_v2p cfg (by decide) vaddr

instance (bytes : Nat) (addr : BitVec 64) :
    Storeless Hart.regs (loadData cfg bytes addr) := by
  unfold loadData
  infer_instance

instance (bytes : Nat) (addr : BitVec 64) :
    Storeless Hart.regs (atomicLoadData cfg bytes addr) := by
  unfold atomicLoadData
  infer_instance

end Storeless

/-! ## The store -/

section Settles

open Memory

variable (cfg : Config)

instance {α : Type} (question : Call) (receive : Reply question → α) :
    Machine.Untrapped (call question receive) :=
  inferInstanceAs (Machine.Untrapped (Machine.request question receive))

instance : Machine.Untrapped waitForAccessRights := by
  unfold waitForAccessRights
  infer_instance

instance : Machine.Untrapped atomicUnlock := by
  unfold atomicUnlock
  infer_instance

instance (kind : StoreKind) (range : DmiRange) (bytes : Nat)
    (addr : BitVec 64) (data : BitVec (8 * bytes)) :
    Machine.Untrapped (dmiStore kind range bytes addr data) := by
  unfold dmiStore
  infer_instance

instance (kind : StoreKind) (bytes : Nat) (addr : BitVec 64)
    (data : BitVec (8 * bytes)) (ranges : List DmiRange) :
    Machine.Untrapped (dmiStores kind bytes addr data ranges) := by
  induction ranges with
  | nil => exact inferInstanceAs (Machine.Untrapped (pure ()))
  | cons range rest inductionHypothesis => exact Machine.Untrapped.bind _ _

instance (bytes : Nat) (addr : BitVec 64) (data : BitVec (8 * bytes)) :
    Settles Hart.regs (writeTransaction .data bytes addr data) where
  settles surroundings world hart := by
    refine ⟨trivial, fun reply _ => ?_⟩
    cases reply with
    | ok value interrupts =>
        rintro _ _ ⟨⟩
    | error interrupts =>
        rintro _ _ ⟨⟩
        exact ⟨rfl, rfl, rfl⟩
    | fatal =>
        rintro _ _ ⟨⟩

/-- The bus is asked only when no range has taken the data. -/
instance (bytes : Nat) (addr : BitVec 64) (data : BitVec (8 * bytes)) :
    Settles Hart.regs (rawStoreData cfg .data bytes addr data) := by
  unfold rawStoreData
  have settles : Settles Hart.regs (do
      dmiStores .data bytes addr data
        (cfg.dmiRanges.filter (·.contains addr))
      if (cfg.dmiRanges.filter (·.contains addr)).isEmpty then
        writeTransaction .data bytes addr data
      atomicUnlock) := by
    cases cfg.dmiRanges.filter (·.contains addr) with
    | nil =>
        exact Settles.bind_untrapped
          (writeTransaction .data bytes addr data) _
    | cons range rest =>
        exact Settles.of_untrapped
          (dmiStores .data bytes addr data (range :: rest) >>= fun _ =>
            atomicUnlock)
  exact Settles.storeless_bind _ _

end Settles

/-! ## The instruction -/

/-- What an atomic operation of this width reads of memory before it
stores. -/
structure AmoOperands (bytes : Nat) where
  data : BitVec (8 * bytes)
  operand : BitVec 64
  paddr : BitVec 64

/-- The word, the operand, and the page table entries that the translation of
the store needs. -/
def amoReads (cfg : Config) (instr : Instruction) (bytes : Nat)
    (addr : BitVec 64) : HartM (AmoOperands bytes) := do
  let data ← Memory.atomicLoadData cfg bytes addr
  let operand ← Machine.reads fun hart : Hart => hart.regs instr.rs2
  let locked ← Memory.isLocked
  Machine.assert locked .amoNotLocked
  let paddr ← Memory.v2p cfg addr .store
  pure ⟨data, operand, paddr⟩

section Instruction

variable (cfg : Config) (instr : Instruction) {bytes : Nat}
  (operation : BitVec (8 * bytes) → BitVec (8 * bytes) → BitVec (8 * bytes))

/-- The rest of it. -/
def amoRest (operands : AmoOperands bytes) : HartM Unit := do
  Memory.rawStoreData cfg .data bytes operands.paddr
    (operation operands.data (operands.operand.setWidth (8 * bytes)))
  Machine.modifies fun hart =>
    hart.setReg instr.rd (operands.data.signExtend 64)

instance (operands : AmoOperands bytes) :
    Settles Hart.regs (amoRest cfg instr operation operands) := by
  unfold amoRest
  exact Settles.bind_untrapped _ _

/-- `execute_amo_w` and `execute_amo_d` on an aligned address. -/
theorem executeAmo_apply {hart : Hart}
    (aligned : (hart.regs instr.rs1).toNat % bytes = 0) :
    Exec.executeAmo cfg instr bytes operation hart =
      (Machine.catchTrap
        (Memory.atomicLoadData cfg bytes (hart.regs instr.rs1))
        (fun trap => Machine.raise (relabelled trap)) >>= fun data => do
          let operand ← Machine.reads fun hart : Hart => hart.regs instr.rs2
          let locked ← Memory.isLocked
          Machine.assert locked .amoNotLocked
          let paddr ← Memory.v2p cfg (hart.regs instr.rs1) .store
          amoRest cfg instr operation ⟨data, operand, paddr⟩) hart := by
  have check : trapCheckAddrAlignment bytes false (hart.regs instr.rs1) =
      pure () :=
    if_neg (not_not.2 aligned)
  change (trapCheckAddrAlignment bytes false (hart.regs instr.rs1) >>=
    fun _ => Machine.catchTrap
        (Memory.atomicLoadData cfg bytes (hart.regs instr.rs1))
        (fun trap => Machine.raise (relabelled trap)) >>=
      fun data => (Machine.reads fun hart : Hart => hart.regs instr.rs2) >>=
        fun operand => Memory.atomicStoreData cfg bytes (hart.regs instr.rs1)
            (operation data (operand.setWidth (8 * bytes))) >>=
          fun _ => Machine.modifies fun hart =>
            hart.setReg instr.rd (data.signExtend 64)) hart = _
  rw [check]
  simp only [Memory.atomicStoreData, Memory.storeData, amoRest,
    Machine.bind_assoc]
  rfl

/-- The traps of an atomic operation are those of a store exactly when nothing
that it reads ends with a load page fault. -/
theorem executeAmo_faultsAsStore_iff {G : Type}
    (surroundings : Surroundings Reply G) (world : G) (hart : Hart) :
    FaultsAsStore Hart.regs (Exec.executeAmo cfg instr bytes operation)
        surroundings world hart ↔
      ((hart.regs instr.rs1).toNat % bytes = 0 →
        Loads (amoReads cfg instr bytes (hart.regs instr.rs1))
          surroundings world hart) := by
  by_cases aligned : (hart.regs instr.rs1).toNat % bytes = 0
  · have loads : Storeless Hart.regs (Machine.catchTrap
        (Memory.atomicLoadData cfg bytes (hart.regs instr.rs1))
        fun trap => Machine.raise (relabelled trap)) :=
      Storeless.relabel isPageFault_relabelled _
    have reads : Storeless Hart.regs (Machine.catchTrap
        (Memory.atomicLoadData cfg bytes (hart.regs instr.rs1))
        (fun trap => Machine.raise (relabelled trap)) >>= fun data => do
          let operand ← Machine.reads fun hart : Hart => hart.regs instr.rs2
          let locked ← Memory.isLocked
          Machine.assert locked .amoNotLocked
          let paddr ← Memory.v2p cfg (hart.regs instr.rs1) .store
          pure (AmoOperands.mk data operand paddr)) :=
      Storeless.bind _ _
    rw [FaultsAsStore, executeAmo_apply cfg instr operation aligned,
      imp_iff_right aligned]
    refine Iff.trans (Iff.of_eq ?_) <|
      (faultsAsStore_bind_iff Hart.regs _ (amoRest cfg instr operation)).trans
        (loads_relabelled_bind_iff _ _)
    rw [FaultsAsStore]
    simp only [Machine.bind_assoc]
    rfl
  · refine iff_of_true ?_ fun isAligned => absurd isAligned aligned
    have check : trapCheckAddrAlignment bytes false (hart.regs instr.rs1) =
        Machine.raise ⟨.storeAmoAddrMisaligned, hart.regs instr.rs1⟩ :=
      if_pos aligned
    change Program.Under _ _ ((trapCheckAddrAlignment bytes false
      (hart.regs instr.rs1) >>= fun _ => _) hart) _
    rw [check]
    rintro _ _ ⟨⟩
    exact ⟨.inl rfl, rfl, rfl⟩

end Instruction

/-- The width of an atomic operation. -/
def amoBytes : Mapping → Nat
  | .amoswapD | .amoaddD | .amoxorD | .amoandD | .amoorD | .amominD
  | .amominuD | .amomaxD | .amomaxuD => 8
  | _ => 4

/-- Every atomic operation is `execute_amo_w` or `execute_amo_d`. -/
theorem exists_executeAmo {cfg : Config} {instr : Instruction} {op : Mapping}
    {machine : HartM Unit} (atomic : Exec.amo cfg instr op = some machine) :
    ∃ operation, machine = Exec.executeAmo cfg instr (amoBytes op) operation := by
  cases op with
  | amoswapW | amoaddW | amoxorW | amoandW | amoorW | amominW | amominuW
  | amomaxW | amomaxuW | amoswapD | amoaddD | amoxorD | amoandD | amoorD
  | amominD | amominuD | amomaxD | amomaxuD =>
      cases atomic
      exact ⟨_, rfl⟩
  | _ => cases atomic

end Rv64

/-! ## Both cores -/

namespace Amo

open Interaction
open Rv32 (Reply)

/-- The traps of the atomic operations of both cores are those of a store, and
leave the registers and the word as they were, exactly when the address is
misaligned or neither the load of the word nor the translation of the store
ends with a load page fault. -/
theorem faultsAsStore_iff {G : Type} (surroundings : Surroundings Reply G)
    (world : G) (instr : Instruction) :
    (∀ (cfg : Rv32.Config) (hart : Rv32.Hart) (op : Mapping),
      Rv32.isAmo op = true → hart.hasExtension Rv32.Csr.Misa.a = true →
      (FaultsAsStore Rv32.Hart.regs
          (Machine.answering (Rv32.perform cfg) (Rv32.execute cfg instr op))
          surroundings world hart ↔
        ((hart.regs instr.rs1).toNat % 4 = 0 →
          Loads
            (Rv32.amoReads cfg instr ((hart.regs instr.rs1).setWidth 64))
            surroundings world hart))) ∧
    ∀ (cfg : Rv64.Config) (hart : Rv64.Hart) (op : Mapping)
      (machine : Rv64.HartM Unit),
      Rv64.Exec.amo cfg instr op = some machine →
      (FaultsAsStore Rv64.Hart.regs machine surroundings world hart ↔
        ((hart.regs instr.rs1).toNat % Rv64.amoBytes op = 0 →
          Loads
            (Rv64.amoReads cfg instr (Rv64.amoBytes op) (hart.regs instr.rs1))
            surroundings world hart)) := by
  constructor
  · intro cfg hart op atomic extension
    obtain ⟨operation, body⟩ := Rv32.exists_amo cfg instr atomic
    have required : Machine.answering (Rv32.perform cfg)
        (Rv32.Exec.amo instr operation) hart =
          Machine.answering (Rv32.perform cfg)
            (Rv32.Exec.executeAmo instr operation) hart :=
      Rv32.amo_apply cfg instr operation extension
    rw [body, FaultsAsStore, required]
    apply Rv32.executeAmo_faultsAsStore_iff
  · intro cfg hart op machine atomic
    obtain ⟨operation, rfl⟩ := Rv64.exists_executeAmo atomic
    apply Rv64.executeAmo_faultsAsStore_iff

/-- `amoadd.w x6, x7, (x5)` -/
def atomicAdd : Instruction := 0x0072a32f

/-- The 32-bit core before it, with an address in `x5`. -/
def before32 (addr : BitVec 32) : Rv32.Hart :=
  (Rv32.Hart.reset 0 false 0 0).setReg 5 addr

/-- The 64-bit core before it, in machine mode. -/
def before64 (addr : BitVec 64) : Rv64.Hart where
  regs r := if r = 5 then addr else 0
  mhartid := 0
  mstatus := 0
  satp := 0
  prv := machineMode
  tlb := Mmu.flushTlb

/-- A memory that answers writes with an error. -/
def readOnly : (request : Rv32.Call) → Rv32.Platform →
    Reply request × Rv32.Platform
  | .write _ _ _ _, platform => (.error [], platform)
  | request, platform => Rv32.Platform.handle request platform

/-- The cause of the trap that ends a machine on the memory. -/
def causeOf {σ α : Type} (machine : Machine Reply σ SimulationTrap Fatal α)
    (state : σ) : Option ExceptionCode :=
  match ((machine state).run readOnly (Rv32.Platform.ofWords [])).1 with
  | .trap cause _ => some cause.reason
  | _ => none

/-- Without a trap there is no load page fault. -/
theorem loads_of_causeOf {σ α : Type}
    {machine : Machine Reply σ SimulationTrap Fatal α} {state : σ}
    (untrapped : causeOf machine state = none) :
    Loads machine (.of readOnly) (Rv32.Platform.ofWords []) state := by
  rw [Loads, Program.under_iff_reachesIn]
  rintro last _ reached cause after rfl
  rw [Program.reachesIn_of] at reached
  rw [causeOf, reached] at untrapped
  cases untrapped

/-- The operation of the 32-bit core. -/
abbrev add32 : Rv32.HartM Unit :=
  Machine.answering (Rv32.perform Rv32.Platform.config)
    (Rv32.execute Rv32.Platform.config atomicAdd .amoaddW)

/-- The operation of the 64-bit core. -/
abbrev add64 : Rv64.HartM Unit := Rv64.Exec.amoadd ⟨[]⟩ atomicAdd 4

/-- At a misaligned address, and where the word can be read but not written, the
cause is that of a store. -/
theorem faultsAsStore_readOnly :
    (∀ addr ∈ [0x102, 0x100], FaultsAsStore Rv32.Hart.regs add32
        (.of readOnly) (Rv32.Platform.ofWords []) (before32 addr)) ∧
      (∀ addr ∈ [0x102, 0x100], FaultsAsStore Rv64.Hart.regs add64
        (.of readOnly) (Rv32.Platform.ofWords []) (before64 addr)) ∧
      causeOf add32 (before32 0x102) = some .storeAmoAddrMisaligned ∧
      causeOf add32 (before32 0x100) = some .storeAmoPageFault ∧
      causeOf add64 (before64 0x102) = some .storeAmoAddrMisaligned ∧
      causeOf add64 (before64 0x100) = some .storeAmoPageFault := by
  refine ⟨fun addr member => ?_, fun addr member => ?_, by decide +kernel,
    by decide +kernel, by decide +kernel, by decide +kernel⟩
  · refine ((faultsAsStore_iff (.of readOnly) (Rv32.Platform.ofWords [])
      atomicAdd).1 Rv32.Platform.config (before32 addr) .amoaddW (by decide)
      (show (before32 0).hasExtension _ = true by decide)).2 fun aligned => ?_
    rcases List.mem_pair.1 member with rfl | rfl
    · exact absurd aligned (by decide)
    · exact loads_of_causeOf (by decide +kernel)
  · refine ((faultsAsStore_iff (.of readOnly) (Rv32.Platform.ofWords [])
      atomicAdd).2 ⟨[]⟩ (before64 addr) .amoaddW _ rfl).2 fun aligned => ?_
    rcases List.mem_pair.1 member with rfl | rfl
    · exact absurd aligned (by decide)
    · exact loads_of_causeOf (by decide +kernel)

/-- Where the bus answers with an error, the cause is that of a load. -/
theorem not_faultsAsStore :
    ¬ FaultsAsStore Rv32.Hart.regs
        (Machine.answering (Rv32.perform Rv32.Platform.config)
          (Rv32.execute Rv32.Platform.config atomicAdd .amoaddW))
        Surroundings.any () (before32 0x40000000) ∧
      ¬ FaultsAsStore Rv64.Hart.regs (Rv64.Exec.amoadd ⟨[]⟩ atomicAdd 4)
        Surroundings.any () (before64 0x40000000) := by
  constructor
  · intro faults
    have loaded := ((faults.2 [] trivial).2 () trivial).2 [] trivial
    have refused := loaded.2 (.error []) trivial _ _ rfl
    exact absurd refused.1 (by simp [IsStoreFault])
  · intro faults
    have loaded := (faults.2 [] trivial).2 [] trivial
    have refused := loaded.2 (.error []) trivial _ _ rfl
    exact absurd refused.1 (by simp [IsStoreFault])

end Amo

end RiscvVp
