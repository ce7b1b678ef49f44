import RiscvVp.Rv32.Platform

/-!
# What a failed transaction is reported as

A transaction that the bus answers with an error becomes a page fault at the
physical address of the transaction.  The hart therefore reports the virtual
address of the access exactly when the two are the same; for a physical
address beyond 32 bits it reports nothing, because the trap value does not fit
its register and the simulator dies.
-/

namespace RiscvVp

namespace Rv32

open Csr Interaction

/-! ## Failed transactions -/

structure FailedTransaction where
  write : Bool
  addr : BitVec 64
  deriving DecidableEq

/-- The transaction that the reply refuses. -/
def failedTransaction : (request : Call) → Reply request →
    Option FailedTransaction
  | .read _ addr, .error _ => some ⟨false, addr⟩
  | .write _ _ addr _, .error _ => some ⟨true, addr⟩
  | _, _ => none

/-- Any surroundings, which remember the first transaction they refused. -/
def refusing : Surroundings Reply (Option FailedTransaction) where
  allows _ _ _ := True
  next failed request reply := failed.or (failedTransaction request reply)

/-- The trap that the memory interface makes of it. -/
def FailedTransaction.trap (failed : FailedTransaction) : SimulationTrap :=
  ⟨if failed.write then .storeAmoPageFault else .loadPageFault, failed.addr⟩

/-- The machine ends at once when a transaction fails, with its trap. -/
class Refuses {α : Type} (machine : HartM α) : Prop where
  refuses : ∀ hart, (machine hart).Under refusing.monitor none
    fun failed outcome => ∀ transaction, failed = some transaction →
      ∃ after, outcome = .trap transaction.trap after

namespace Refuses

variable {α β : Type}

instance (value : α) : Refuses (pure value) where
  refuses _ := nofun

instance (read : Hart → α) : Refuses (Machine.reads read) where
  refuses _ := nofun

instance (update : Hart → Hart) : Refuses (Machine.modifies update) where
  refuses _ := nofun

instance (cause : SimulationTrap) :
    Refuses (Machine.raise cause : HartM α) where
  refuses _ := nofun

instance (reason : Fatal) : Refuses (Machine.abort reason : HartM α) where
  refuses _ := nofun

instance (condition : Bool) (reason : Fatal) :
    Refuses (Machine.assert condition reason) := by
  cases condition with
  | true => exact inferInstanceAs (Refuses (pure ()))
  | false => exact inferInstanceAs (Refuses (Machine.abort reason))

/-- A call that is no transaction. -/
theorem call (question : Call) (receive : Reply question → α)
    (benign : ∀ reply, failedTransaction question reply = none) :
    Refuses (Rv32.call question receive) where
  refuses hart := by
    refine ⟨trivial, fun reply _ => ?_⟩
    change ∀ transaction, (none : Option FailedTransaction).or
      (failedTransaction question reply) = some transaction → _
    rw [benign reply]
    exact nofun

instance bind (machine : HartM α) (continuation : α → HartM β)
    [first : Refuses machine] [rest : ∀ value, Refuses (continuation value)] :
    Refuses (machine >>= continuation) where
  refuses hart := by
    rw [Machine.under_bind]
    refine (first.refuses hart).mono fun failed outcome refused => ?_
    cases failed with
    | none =>
        cases outcome with
        | done value middle => exact (rest value).refuses middle
        | trap cause middle => exact nofun
        | abort reason => exact nofun
    | some transaction =>
        obtain ⟨after, rfl⟩ := refused transaction rfl
        rintro _ ⟨⟩
        exact ⟨after, rfl⟩

instance ite (condition : Prop) [Decidable condition]
    (first second : HartM α) [left : Refuses first]
    [right : Refuses second] :
    Refuses (if condition then first else second) := by
  split
  · exact left
  · exact right

theorem answering {C' : Type} {R' : C' → Type}
    (answer : (question : C') → HartM (R' question))
    [answers : ∀ question, Refuses (answer question)]
    (program : Program R' α) : Refuses (Machine.answering answer program) := by
  induction program with
  | ret result => exact inferInstanceAs (Refuses (pure result))
  | call question next inductionHypothesis =>
      rw [Machine.answering_call]
      exact bind _ _

theorem embed {C' : Type} {R' : C' → Type} {σ : Type}
    (answer : (question : C') → HartM (R' question))
    [answers : ∀ question, Refuses (answer question)]
    (read : Hart → σ) (write : σ → Hart → Hart)
    (machine : Machine R' σ SimulationTrap Fatal α) :
    Refuses (Machine.embed answer read write machine) := by
  have ends (outcome : Outcome σ SimulationTrap Fatal α) :
      Refuses (Machine.writeBack (R := Reply) write outcome) := by
    cases outcome with
    | done value part => exact bind _ _
    | trap cause part => exact bind _ _
    | abort reason => exact inferInstanceAs (Refuses (Machine.abort reason))
  have answered (part : σ) := answering answer (machine part)
  exact bind _ _

end Refuses

/-! ## The memory interface -/

section Memory

open Memory

variable (cfg : Config)

instance (interrupts : List InterruptEvent) : Refuses (deliver interrupts) :=
  inferInstanceAs (Refuses (Machine.modifies _))

instance : Refuses waitForAccessRights := by
  have waits (hartId : BitVec 32) :=
    Refuses.call (.waitForAccessRights hartId) id fun _ => rfl
  unfold waitForAccessRights
  infer_instance

instance : Refuses atomicUnlock := by
  have unlocks (hartId : BitVec 32) :=
    Refuses.call (.unlock hartId) id fun _ => rfl
  unfold atomicUnlock
  infer_instance

instance (bytes : Nat) (addr : BitVec 64) :
    Refuses (readTransaction bytes addr) where
  refuses hart := by
    refine ⟨trivial, fun reply _ => ?_⟩
    cases reply with
    | ok value interrupts => exact nofun
    | error interrupts =>
        rintro _ ⟨⟩
        exact ⟨_, rfl⟩
    | fatal => exact nofun

instance (kind : StoreKind) (bytes : Nat) (addr : BitVec 64)
    (data : BitVec (8 * bytes)) :
    Refuses (writeTransaction kind bytes addr data) where
  refuses hart := by
    refine ⟨trivial, fun reply _ => ?_⟩
    cases reply with
    | ok value interrupts => exact nofun
    | error interrupts =>
        rintro _ ⟨⟩
        exact ⟨_, rfl⟩
    | fatal => exact nofun

instance (range : DmiRange) (bytes : Nat) (addr : BitVec 64) :
    Refuses (dmiLoad range bytes addr) := by
  have loads := Refuses.call (.dmiLoad range bytes addr) id fun _ => rfl
  unfold dmiLoad
  infer_instance

instance (kind : StoreKind) (range : DmiRange) (bytes : Nat)
    (addr : BitVec 64) (data : BitVec (8 * bytes)) :
    Refuses (dmiStore kind range bytes addr data) := by
  have stores :=
    Refuses.call (.dmiStore kind range bytes addr data) id fun _ => rfl
  unfold dmiStore
  infer_instance

instance (bytes : Nat) (addr : BitVec 64) :
    Refuses (rawLoadData cfg bytes addr) := by
  unfold rawLoadData
  refine @Refuses.bind _ _ _ _ _ fun _ => ?_
  split <;> infer_instance

instance (kind : StoreKind) (bytes : Nat) (addr : BitVec 64)
    (data : BitVec (8 * bytes)) (ranges : List DmiRange) :
    Refuses (dmiStores kind bytes addr data ranges) := by
  induction ranges with
  | nil => exact inferInstanceAs (Refuses (pure ()))
  | cons range rest inductionHypothesis => exact Refuses.bind _ _

instance (kind : StoreKind) (bytes : Nat) (addr : BitVec 64)
    (data : BitVec (8 * bytes)) :
    Refuses (rawStoreData cfg kind bytes addr data) := by
  unfold rawStoreData
  infer_instance

instance (question : Mmu.Call) : Refuses (answerMmu cfg question) := by
  cases question with
  | loadPte32 addr => exact Refuses.bind _ _
  | loadPte64 addr => exact Refuses.bind _ _
  | storePte32 addr value =>
      exact inferInstanceAs (Refuses (rawStoreData cfg .pte 4 addr value))

instance (vaddr : BitVec 64) (type : MemoryAccessType) :
    Refuses (v2p cfg vaddr type) := by
  have runs {α : Type} (machine : Mmu.MmuM α) :
      Refuses (runMmu cfg machine) :=
    Refuses.embed _ _ _ _
  unfold v2p
  infer_instance

instance (bytes : Nat) (addr : BitVec 64) :
    Refuses (loadData cfg bytes addr) := by
  unfold loadData
  infer_instance

instance (bytes : Nat) (addr : BitVec 64) (data : BitVec (8 * bytes)) :
    Refuses (storeData cfg bytes addr data) := by
  unfold storeData
  infer_instance

instance (addr : BitVec 64) : Refuses (loadInstr cfg addr) := by
  unfold loadInstr
  split <;> infer_instance

end Memory

/-! ## Reports -/

/-- A load, a store or a fetch. -/
inductive MemoryAccess : Type
  | load (bytes : Nat) (addr : BitVec 32)
  | store (bytes : Nat) (addr : BitVec 32) (data : BitVec (8 * bytes))
  | fetch (addr : BitVec 32)

namespace MemoryAccess

def addr : MemoryAccess → BitVec 32
  | .load _ addr | .store _ addr _ | .fetch addr => addr

def make (cfg : Config) : MemoryAccess → HartM Unit
  | .load bytes addr => do
      let _ ← Memory.loadData cfg bytes (addr.setWidth 64)
      pure ()
  | .store bytes addr data => Memory.storeData cfg bytes (addr.setWidth 64) data
  | .fetch addr => do
      let _ ← Memory.loadInstr cfg (addr.setWidth 64)
      pure ()

instance (cfg : Config) (access : MemoryAccess) : Refuses (access.make cfg) := by
  cases access with
  | load bytes addr => exact Refuses.bind _ _
  | store bytes addr data =>
      exact inferInstanceAs (Refuses (Memory.storeData cfg _ _ data))
  | fetch addr => exact Refuses.bind _ _

/-- The access inside the `try` block of `run_step`, and its handler. -/
def attempt (cfg : Config) (access : MemoryAccess) :
    HartM (Option StepEvent) :=
  Machine.catchTrap
    (do
      access.make cfg
      pure none)
    fun trap => do
      let event ← takeTrap trap
      pure (some event)

/-- The hart takes a trap, with the virtual address as its trap value. -/
def Reported (access : MemoryAccess)
    (outcome : Outcome Hart SimulationTrap Fatal (Option StepEvent)) : Prop :=
  ∃ trap target after, outcome = .done (some (.trapped trap target)) after ∧
    after.csrs (handlerOf target).tval = access.addr

/-- Whenever a transaction of the access fails, it is reported. -/
def ReportsFailures (cfg : Config) (access : MemoryAccess) (hart : Hart) :
    Prop :=
  (access.attempt cfg hart).Under refusing.monitor none
    fun failed outcome => failed.isSome → access.Reported outcome

/-- The transaction is at the virtual address, and its trap is not delegated
to user mode from elsewhere. -/
def IsReportable (access : MemoryAccess) (hart : Hart)
    (transaction : FailedTransaction) : Prop :=
  transaction.addr = access.addr.setWidth 64 ∧
    (trapTarget hart transaction.trap.reason = userMode →
      hart.prv = userMode)

end MemoryAccess

/-- The trap value of the handler that is entered is the recorded one. -/
theorem tval_of_enter {mode : PrivilegeLevel} {trap : SimulationTrap}
    {hart entered : Hart}
    (enters : enter mode (recorded (handlerOf mode) trap hart) =
      some entered) :
    entered.csrs (handlerOf mode).tval = trap.mtval.setWidth 32 := by
  rcases enter_cases enters with ⟨rfl, rfl⟩ | ⟨rfl, rfl⟩ | ⟨rfl, rfl⟩ <;> rfl

namespace MemoryAccess

theorem takeTrap_reported_iff (access : MemoryAccess) (hart : Hart)
    (transaction : FailedTransaction) :
    ((takeTrap transaction.trap >>= fun event => pure (some event)) hart).Under
      refusing.monitor (some transaction)
      (fun failed outcome => failed.isSome → access.Reported outcome) ↔
    access.IsReportable hart transaction := by
  have observed {α : Type} (continuation : Unit → HartM α)
      (property : Option FailedTransaction →
        Outcome Hart SimulationTrap Fatal α → Prop) :
      ((observe .trapCaught >>= continuation) hart).Under refusing.monitor
        (some transaction) property ↔
      (continuation () hart).Under refusing.monitor (some transaction)
        property :=
    ⟨fun holds => holds.2 () trivial, fun holds => ⟨trivial, fun _ _ => holds⟩⟩
  unfold takeTrap
  rw [Machine.bind_assoc, observed, Machine.bind_assoc, Machine.under_bind,
    prepareTrap_apply, Program.under_ret]
  by_cases elsewhere : trapTarget hart transaction.trap.reason = userMode ∧
      hart.prv ≠ userMode
  · rw [if_pos elsewhere]
    refine iff_of_false (fun reported => ?_) fun reportable => ?_
    · obtain ⟨_, _, _, contradiction, _⟩ := reported rfl
      cases contradiction
    · exact elsewhere.2 (reportable.2 elsewhere.1)
  rw [if_neg elsewhere]
  by_cases fits : transaction.trap.mtval.toNat < 2 ^ 32
  · rw [if_pos fits]
    dsimp only
    obtain ⟨entered, enters⟩ := Option.isSome_iff_exists.1 <|
      (enter_isSome_iff _ <|
        recorded (handlerOf (trapTarget hart transaction.trap.reason))
          transaction.trap hart.rewound).2
        (trapTarget_isValid hart transaction.trap.reason)
    have tval : entered.csrs
        (handlerOf (trapTarget hart transaction.trap.reason)).tval =
          transaction.addr.setWidth 32 :=
      tval_of_enter enters
    rw [Machine.bind_assoc, Machine.under_bind, switchToTrapHandler_apply,
      enters]
    have same : transaction.addr = access.addr.setWidth 64 ↔
        transaction.addr.setWidth 32 = access.addr := by
      have small : transaction.addr.toNat < 2 ^ 32 := fits
      constructor
      · intro equal
        rw [equal]
        simp
      · intro equal
        rw [← equal]
        apply BitVec.eq_of_toNat_eq
        simp only [BitVec.toNat_setWidth]
        omega
    constructor
    · intro holds
      obtain ⟨trap, target, after, ended, reported⟩ := holds.2 () trivial rfl
      cases ended
      refine ⟨same.2 (tval.symm.trans reported), fun user => ?_⟩
      exact Decidable.not_not.1 fun other => elsewhere ⟨user, other⟩
    · intro reportable
      refine ⟨trivial, fun _ _ _ => ?_⟩
      exact ⟨_, _, _, rfl, tval.trans (same.1 reportable.1)⟩
  · rw [if_neg fits]
    refine iff_of_false (fun reported => ?_) fun reportable => ?_
    · obtain ⟨_, _, _, contradiction, _⟩ := reported rfl
      cases contradiction
    · refine fits ?_
      rw [show transaction.trap.mtval = transaction.addr from rfl,
        reportable.1]
      bv_omega

/-- Handling a trap makes no transaction. -/
theorem takeTrap_silent (trap : SimulationTrap) (hart : Hart) :
    ((takeTrap trap >>= fun event => pure (some event)) hart).Under
      refusing.monitor none fun failed _ => failed = none := by
  unfold takeTrap
  rw [Machine.bind_assoc, Machine.under_bind]
  refine ⟨trivial, fun _ _ => ?_⟩
  rw [Machine.bind_assoc, Program.under_ret]
  dsimp only
  rw [Machine.under_bind, prepareTrap_apply, Program.under_ret]
  by_cases elsewhere : trapTarget hart trap.reason = userMode ∧
      hart.prv ≠ userMode
  · rw [if_pos elsewhere]
    rfl
  rw [if_neg elsewhere]
  by_cases fits : trap.mtval.toNat < 2 ^ 32
  · rw [if_pos fits]
    dsimp only
    rw [Machine.bind_assoc, Machine.under_bind, switchToTrapHandler_apply]
    refine ⟨trivial, fun _ _ => ?_⟩
    cases enter (trapTarget hart trap.reason) _ <;> rfl
  · rw [if_neg fits]
    rfl

/-- What is reportable is decided by what the access keeps. -/
theorem isReportable_iff_of_steady (access : MemoryAccess)
    {before after : Hart} (steady : Steady before after)
    (transaction : FailedTransaction) :
    access.IsReportable after transaction ↔
      access.IsReportable before transaction := by
  unfold IsReportable trapTarget
  rw [steady.prv, steady.csr .medeleg rfl, steady.csr .sedeleg rfl]

instance (cfg : Config) (access : MemoryAccess) :
    Machine.Framed (Guard.any.frame true) (access.make cfg) := by
  cases access with
  | load bytes addr => exact Machine.Framed.bind _ _
  | store bytes addr data =>
      exact inferInstanceAs (Machine.Framed _ (Memory.storeData cfg _ _ data))
  | fetch addr => exact Machine.Framed.bind _ _

/-- The failures of an access are reported exactly when each of them is at the
virtual address, and its trap goes to user mode from user mode only. -/
theorem reportsFailures_iff (cfg : Config) (access : MemoryAccess)
    (hart : Hart) :
    access.ReportsFailures cfg hart ↔
      (access.make cfg hart).Under refusing.monitor none fun failed _ =>
        ∀ transaction, failed = some transaction →
          access.IsReportable hart transaction := by
  have framed : Machine.Framed (Guard.any.frame true) (access.make cfg) :=
    inferInstance
  have refused : Refuses (access.make cfg) := inferInstance
  have ends := (refused.refuses hart).and_all (framed.framed hart trivial)
  unfold ReportsFailures attempt
  rw [Machine.under_catchTrap, Machine.under_bind]
  refine ends.congr fun failed outcome known => ?_
  obtain ⟨refuses, within⟩ := known
  cases failed with
  | none =>
      cases outcome with
      | done value middle => exact iff_of_true nofun nofun
      | trap trap middle =>
          refine iff_of_true ?_ nofun
          refine (takeTrap_silent trap middle).mono fun failed _ silent => ?_
          rw [silent]
          exact nofun
      | abort reason => exact iff_of_true nofun nofun
  | some transaction =>
      obtain ⟨after, rfl⟩ := refuses transaction rfl
      have steady : Steady hart after := ((Frame.post_trap _ _ _ _).1 within).1
      refine (takeTrap_reported_iff access after transaction).trans ?_
      rw [access.isReportable_iff_of_steady steady]
      exact ⟨fun reportable _ same => Option.some.inj same ▸ reportable,
        fun every => every transaction rfl⟩

end MemoryAccess

/-! ## A superpage beyond 32 bits -/

/-- Machine mode accesses memory with the privilege of user mode, through the
page table at address 0. -/
def translating : Hart :=
  { Hart.reset 0 false 0 0 with
    csrs := ((CsrTable.reset 0 false).set .satp 0x80000000).set .mstatus
      0x00020000 }

/-- The entry maps a superpage to the physical address `0x100000000`, where
there is nothing. -/
theorem not_reportsFailures :
    ¬ (MemoryAccess.load 4 0x02000000).ReportsFailures Platform.config
      translating := by
  intro reports
  have waited := reports.2 [] trivial
  have walked := waited.2 (.ok 0x400000df []) trivial
  have loaded := (walked.2 [] trivial).2 (.error []) trivial
  obtain ⟨_, _, _, contradiction, _⟩ := (loaded.2 () trivial) rfl
  cases contradiction

/-- The program that sets up such a translation and loads through it, with the
entry behind it. -/
def loadBeyond : List (BitVec 32) :=
  [0x800002b7, 0x18029073, 0x00020337, 0x30031073, 0x020003b7, 0x0003ae03, 0,
    0, 0x400000df]

/-- In a reachable state the conversion of the trap value throws. -/
theorem badLexicalCast_of_reachable :
    ∃ platform hart later,
      Reachable Platform.config Platform.surroundings platform hart ∧
      (runStep Platform.config hart).ReachesIn Platform.surroundings platform
        later (.abort .badLexicalCast) := by
  obtain ⟨platform, hart, later, outcome, reachable, reaches, thrown⟩ :=
    Platform.exists_of_nextStep loadBeyond 5 []
      (fun _ outcome =>
        match outcome with
        | .abort .badLexicalCast => true
        | _ => false)
      (by decide +kernel)
  refine ⟨platform, hart, later, reachable, ?_⟩
  split at thrown
  · exact reaches
  · cases thrown

end Rv32

end RiscvVp
