import RiscvVp.Interaction.Noting
import RiscvVp.Rv32.BusLock
import RiscvVp.Rv32.Step

/-!
# Alterations of memory

What a step may do to data in memory: a store of the program that goes
through, and a system call.  An action that traps has altered nothing, and has
left the integer registers alone.
-/

namespace RiscvVp

namespace Rv32

open Csr Interaction

/-! ## Notes -/

/-- Whether data in memory has been altered: by a store of the program that
went through, or by a system call.  The stores of the page walker do not
count. -/
def altered : Bool → (request : Call) → Reply request → Bool
  | _, .write .data _ _ _, .ok _ _ => true
  | _, .dmiStore .data _ _ _ _, _ => true
  | _, .executeSyscall _ _ _ _ _, _ => true
  | before, _, _ => before

/-- The calls that cannot alter it. -/
def Unaltering : Call → Prop
  | .write .data _ _ _ | .dmiStore .data _ _ _ _ | .executeSyscall _ _ _ _ _ =>
      False
  | _ => True

theorem altered_of_unaltering (request : Call) (harmless : Unaltering request)
    (before : Bool) (reply : Reply request) :
    altered before request reply = before := by
  cases request with
  | write kind bytes addr data =>
      cases kind with
      | data => cases harmless
      | pte => rfl
  | dmiStore kind range bytes addr data =>
      cases kind with
      | data => cases harmless
      | pte => rfl
  | executeSyscall => cases harmless
  | _ => rfl

instance : PermitsQuiet Unaltering where
  quiet question quiet := by
    cases question with
    | write kind bytes addr data =>
        cases kind with
        | data => cases quiet
        | pte => trivial
    | dmiStore kind range bytes addr data =>
        cases kind with
        | data => cases quiet
        | pte => trivial
    | executeSyscall => cases quiet
    | _ => trivial

instance : Machine.Asking Unaltering Memory.lock := by
  have locks (hartId : BitVec 32) : Machine.Asking Unaltering
      (call (.lock hartId) : HartM (List InterruptEvent)) :=
    Machine.Asking.request trivial _
  unfold Memory.lock
  infer_instance

/-- Nothing is altered by the time the machine traps. -/
class TrapsUnaltered {α : Type} (machine : HartM α) : Prop where
  traps : ∀ {G : Type} (surroundings : Surroundings Reply G) (world : G)
    (hart : Hart), (machine hart).Under
      (surroundings.noting altered).monitor (world, false)
        fun last outcome => ∀ cause after, outcome = .trap cause after →
          last.2 = false

section Asking

variable {G α β : Type}

/-- Without such calls the note stays as it is. -/
theorem under_of_asking (surroundings : Surroundings Reply G)
    (machine : HartM α) [asking : Machine.Asking Unaltering machine]
    (world : G × Bool) (hart : Hart) :
    (machine hart).Under (surroundings.noting altered).monitor world
      fun last _ => last.2 = world.2 := by
  have asks : (machine hart).Under (Program.restricting Unaltering) ()
      fun _ => fun _ => True :=
    asking.asking hart
  exact (Program.Under.noting altered_of_unaltering asks world.1
    world.2).mono fun _ _ noted => noted.1

namespace TrapsUnaltered

instance of_asking (machine : HartM α) [Machine.Asking Unaltering machine] :
    TrapsUnaltered machine where
  traps surroundings world hart :=
    (under_of_asking surroundings machine (world, false) hart).mono
      fun _ _ same _ _ _ => same

/-- What does not trap may have altered anything. -/
theorem of_untrapped (machine : HartM α) [untrapped : machine.Untrapped] :
    TrapsUnaltered machine where
  traps surroundings world hart := by
    refine ((untrapped.untrapped hart).under _ (world, false)).mono
      fun last outcome trapless cause after trapped => ?_
    exact absurd trapped (trapless cause after)

/-- What comes before alters nothing. -/
theorem asking_bind (machine : HartM α) (continuation : α → HartM β)
    [asking : Machine.Asking Unaltering machine]
    [rest : ∀ value, TrapsUnaltered (continuation value)] :
    TrapsUnaltered (machine >>= continuation) where
  traps surroundings world hart := by
    rw [Machine.under_bind]
    refine (under_of_asking surroundings machine (world, false) hart).mono
      fun last outcome unaltered => ?_
    cases outcome with
    | done value middle =>
        have later := (rest value).traps surroundings last.1 middle
        rwa [show (last.1, false) = last from Prod.ext rfl unaltered.symm]
          at later
    | trap cause middle => exact fun _ _ _ => unaltered
    | abort reason => rintro _ _ ⟨⟩

/-- What follows does not trap. -/
theorem bind_untrapped (machine : HartM α) (continuation : α → HartM β)
    [first : TrapsUnaltered machine]
    [rest : ∀ value, (continuation value).Untrapped] :
    TrapsUnaltered (machine >>= continuation) where
  traps surroundings world hart := by
    rw [Machine.under_bind]
    refine (first.traps surroundings world hart).mono fun last outcome ends => ?_
    cases outcome with
    | done value middle =>
        refine (((rest value).untrapped middle).under _ last).mono
          fun later outcome trapless cause after trapped => ?_
        exact absurd trapped (trapless cause after)
    | trap cause middle =>
        rintro _ _ ⟨⟩
        exact ends cause middle rfl
    | abort reason => rintro _ _ ⟨⟩

end TrapsUnaltered

end Asking

/-! ## The stores -/

section Stores

open Memory

variable (cfg : Config)

/-- A store that the bus refuses has altered nothing. -/
instance (bytes : Nat) (addr : BitVec 64) (data : BitVec (8 * bytes)) :
    TrapsUnaltered (writeTransaction .data bytes addr data) where
  traps surroundings world hart := by
    refine ⟨trivial, fun reply _ => ?_⟩
    cases reply with
    | ok value interrupts =>
        rintro _ _ ⟨⟩
    | error interrupts =>
        rintro _ _ ⟨⟩
        rfl
    | fatal =>
        rintro _ _ ⟨⟩

/-- The bus is asked only when no range has taken the data. -/
instance (bytes : Nat) (addr : BitVec 64) (data : BitVec (8 * bytes)) :
    TrapsUnaltered (rawStoreData cfg .data bytes addr data) := by
  have stores : TrapsUnaltered (do
      dmiStores .data bytes addr data
        (cfg.dmiRanges.filter (·.contains addr))
      if (cfg.dmiRanges.filter (·.contains addr)).isEmpty then
        writeTransaction .data bytes addr data
      atomicUnlock) := by
    cases cfg.dmiRanges.filter (·.contains addr) with
    | nil =>
        exact TrapsUnaltered.bind_untrapped
          (writeTransaction .data bytes addr data) _
    | cons range rest =>
        exact TrapsUnaltered.of_untrapped
          (dmiStores .data bytes addr data (range :: rest) >>= fun _ =>
            atomicUnlock)
  unfold rawStoreData
  exact TrapsUnaltered.asking_bind _ _

instance (bytes : Nat) (addr : BitVec 64) (data : BitVec (8 * bytes)) :
    TrapsUnaltered (storeData cfg bytes addr data) := by
  unfold storeData
  exact TrapsUnaltered.asking_bind _ _

instance (addr : BitVec 64) (value : BitVec 32) :
    TrapsUnaltered (atomicStoreWord cfg addr value) := by
  have stores : TrapsUnaltered (do
      storeData cfg 4 addr value
      observe .amoEnds) :=
    TrapsUnaltered.bind_untrapped _ _
  have asserts (locked : Bool) : TrapsUnaltered (do
      Machine.assert locked .amoNotLocked
      storeData cfg 4 addr value
      observe .amoEnds) :=
    TrapsUnaltered.asking_bind _ _
  unfold atomicStoreWord
  exact TrapsUnaltered.asking_bind _ _

instance (addr : BitVec 64) (value : BitVec 32) :
    TrapsUnaltered (atomicStoreConditionalWord cfg addr value) := by
  have stores : TrapsUnaltered (do
      storeData cfg 4 addr value
      observe (.conditionalSucceeds addr)
      pure true) :=
    TrapsUnaltered.bind_untrapped _ _
  have passes : TrapsUnaltered (do
      observe (.conditionalPasses addr)
      storeData cfg 4 addr value
      observe (.conditionalSucceeds addr)
      pure true) :=
    TrapsUnaltered.asking_bind _ _
  have fails : TrapsUnaltered (do
      atomicUnlock
      pure false) :=
    TrapsUnaltered.of_asking _
  have checks (lrAddr : BitVec 64) : TrapsUnaltered
      (if addr = lrAddr then do
        observe (.conditionalPasses addr)
        storeData cfg 4 addr value
        observe (.conditionalSucceeds addr)
        pure true
      else do
        atomicUnlock
        pure false) := by
    split
    · exact passes
    · exact fails
  unfold atomicStoreConditionalWord
  refine @TrapsUnaltered.asking_bind _ _ _ _ _ fun locked => ?_
  split
  · exact TrapsUnaltered.asking_bind _ _
  · exact TrapsUnaltered.of_asking _

end Stores

/-! ## The actions -/

namespace Action

/-- The actions that write a register or alter memory. -/
def commits : Action → Bool
  | .setReg _ _ | .storeData _ _ _ | .atomicStoreWord _ _
  | .atomicStoreConditionalWord _ _ | .executeSyscall | .setCsrValue _ _
  | .returnFromTrapHandler _ => true
  | _ => false

def mayTrap : Action → Bool
  | .raiseTrap _ _ | .isInvalidCsrAccess _ _ | .getCsrValue _
  | .setCsrValue _ _ | .loadData _ _ | .storeData _ _ _ | .amoLoadWord _
  | .atomicStoreWord _ _ | .atomicLoadReservedWord _
  | .atomicStoreConditionalWord _ _ => true
  | _ => false

end Action

section Actions

variable (cfg : Config)

instance (returnMode : PrivilegeLevel) :
    Machine.Untrapped (returnFromTrapHandler returnMode) := by
  unfold returnFromTrapHandler
  infer_instance

instance : Machine.Untrapped executeSyscall := by
  unfold executeSyscall
  refine @Machine.Untrapped.bind _ _ _ _ _ _ _ _ _ _ fun hart => ?_
  refine @Machine.Untrapped.bind _ _ _ _ _ _ _ _ _ _ fun reply => ?_
  split <;> infer_instance

instance (event : PipelineEvent) :
    Machine.Untrapped (advancePipeline event) := by
  unfold advancePipeline
  refine @Machine.Untrapped.bind _ _ _ _ _ _ _ _ _ _ fun pipeline => ?_
  split <;> infer_instance

theorem perform_untrapped {action : Action}
    (trapless : action.mayTrap = false) :
    Machine.Untrapped (perform cfg action) := by
  cases action with
  | raiseTrap | isInvalidCsrAccess | getCsrValue | setCsrValue | loadData
  | storeData | amoLoadWord | atomicStoreWord | atomicLoadReservedWord
  | atomicStoreConditionalWord => cases trapless
  | _ =>
      unfold perform
      first
        | infer_instance
        | unfold Memory.flushTlb waitWfi
          infer_instance

instance (addr : BitVec 64) :
    Machine.Asking Unaltering (amoLoadWord cfg addr) := by
  unfold amoLoadWord Memory.atomicLoadWord Memory.loadWord
  infer_instance

instance (addr : BitVec 64) :
    Machine.Asking Unaltering (Memory.atomicLoadReservedWord cfg addr) := by
  unfold Memory.atomicLoadReservedWord Memory.loadWord
  infer_instance

theorem perform_asking {action : Action}
    (alters : action.altersMemory = false) :
    Machine.Asking Unaltering (perform cfg action) := by
  cases takes : action.takesLock with
  | false => exact perform_unaltering cfg takes alters
  | true =>
      cases action with
      | amoLoadWord | atomicLoadReservedWord =>
          unfold perform
          infer_instance
      | _ => cases takes

theorem perform_trapsUnaltered (action : Action) :
    TrapsUnaltered (perform cfg action) := by
  cases alters : action.altersMemory with
  | false =>
      have := perform_asking cfg alters
      infer_instance
  | true =>
      cases action with
      | storeData | atomicStoreWord | atomicStoreConditionalWord =>
          unfold perform
          infer_instance
      | executeSyscall => exact TrapsUnaltered.of_untrapped executeSyscall
      | _ => cases alters

/-- An action keeps the registers when it traps, and when it does not commit. -/
theorem perform_keepsRegs (action : Action) (hart : Hart) :
    (perform cfg action hart).All fun outcome =>
      (∀ cause after, outcome = .trap cause after → after.regs = hart.regs) ∧
        (action.commits = false → ∀ answer after,
          outcome = .done answer after → after.regs = hart.regs) := by
  cases action with
  | setReg regIdx value =>
      refine ⟨?_, nofun⟩
      rintro _ _ ⟨⟩
  | fatal reason =>
      refine ⟨?_, fun _ => ?_⟩
      · rintro _ _ ⟨⟩
      · rintro _ _ ⟨⟩
  | setCsrValue addr value =>
      rcases setCsrValue_outcome addr value hart with
        ⟨after, equation, _⟩ | ⟨trap, equation, _⟩
      · rw [perform, equation]
        refine ⟨?_, nofun⟩
        rintro _ _ ⟨⟩
      · rw [perform, equation]
        refine ⟨?_, nofun⟩
        rintro _ _ ⟨⟩
        rfl
  | returnFromTrapHandler mode =>
      have trapless : Machine.Untrapped
          (perform cfg (.returnFromTrapHandler mode)) :=
        perform_untrapped cfg rfl
      refine (trapless.untrapped hart).mono fun outcome ends => ⟨?_, nofun⟩
      exact fun cause after trapped => absurd trapped (ends cause after)
  | executeSyscall =>
      have trapless : Machine.Untrapped (perform cfg .executeSyscall) :=
        perform_untrapped cfg rfl
      refine (trapless.untrapped hart).mono fun outcome ends => ⟨?_, nofun⟩
      exact fun cause after trapped => absurd trapped (ends cause after)
  | _ =>
      refine ((perform_framed cfg .any rfl).framed hart trivial).mono
        fun outcome within => ⟨?_, fun _ => ?_⟩
      · rintro cause after rfl
        exact ((Frame.post_trap _ _ _ _).1 within).2 rfl
      · rintro answer after rfl
        exact ((Frame.post_done _ _ _ _).1 within).2 rfl

end Actions

end Rv32

end RiscvVp
