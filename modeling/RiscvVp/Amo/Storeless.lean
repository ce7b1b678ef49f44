import RiscvVp.Core.MmuFrame
import RiscvVp.Interaction.Noting
import RiscvVp.Rv32.Hart

/-!
# What happens before an atomic operation stores

The harts of both widths reach the bus through the same calls.  A part of an
instruction is storeless when it stores no data, leaves what is in view of the
state alone, and traps with page faults only.  The page walker's own stores
are no data.
-/

namespace RiscvVp

namespace Amo

open Interaction
open Rv32 (Call Reply StoreKind)

/-! ## Stores of data -/

def StoresNoData : Call → Prop
  | .write .data _ _ _ | .dmiStore .data _ _ _ _ => False
  | _ => True

/-- Whether data has been stored; a store that the bus refuses has not. -/
def stored : Bool → (request : Call) → Reply request → Bool
  | _, .write .data _ _ _, .ok _ _ => true
  | _, .dmiStore .data _ _ _ _, _ => true
  | before, _, _ => before

theorem stored_of_storesNoData (request : Call)
    (quiet : StoresNoData request) (before : Bool) (reply : Reply request) :
    stored before request reply = before := by
  cases request with
  | write kind bytes addr data =>
      cases kind with
      | data => cases quiet
      | pte => rfl
  | dmiStore kind range bytes addr data =>
      cases kind with
      | data => cases quiet
      | pte => rfl
  | _ => rfl

/-! ## Storeless machines -/

/-- The causes that the memory interface raises for loads and stores. -/
def IsPageFault (reason : ExceptionCode) : Prop :=
  reason = .loadPageFault ∨ reason = .storeAmoPageFault

/-- A translation for a load or a store traps with one of them. -/
theorem translate_isPageFault (core : Mmu.Core) (vaddr : BitVec 64)
    {type : MemoryAccessType} (data : type ≠ .fetch) (tlb : Mmu.Tlb) :
    (Mmu.translateVirtualToPhysicalAddr core vaddr type tlb).All fun outcome =>
      ∀ cause after, outcome = .trap cause after →
        IsPageFault cause.reason := by
  refine (Mmu.translate_traps core vaddr type tlb).mono
    fun outcome traps cause after trapped => ?_
  rw [traps cause after trapped]
  cases type with
  | fetch => exact absurd rfl data
  | load => exact .inl rfl
  | store => exact .inr rfl

variable {σ κ α β : Type} {view : σ → κ}

class Storeless (view : σ → κ)
    (machine : Machine Reply σ SimulationTrap Fatal α) : Prop where
  storeless : ∀ state, (machine state).Under
    (Program.restricting StoresNoData) () fun _ outcome =>
      (∀ after, outcome.state? = some after → view after = view state) ∧
        ∀ cause after, outcome = .trap cause after → IsPageFault cause.reason

namespace Storeless

instance (value : α) :
    Storeless view (pure value : Machine Reply σ SimulationTrap Fatal α) where
  storeless state := by
    refine ⟨fun after same => ?_, nofun⟩
    cases same
    rfl

instance (read : σ → α) :
    Storeless view
      (Machine.reads read : Machine Reply σ SimulationTrap Fatal α) where
  storeless state := by
    refine ⟨fun after same => ?_, nofun⟩
    cases same
    rfl

theorem modifies {update : σ → σ}
    (kept : ∀ state, view (update state) = view state) :
    Storeless view
      (Machine.modifies update : Machine Reply σ SimulationTrap Fatal Unit) where
  storeless state := by
    refine ⟨fun after same => ?_, nofun⟩
    cases same
    exact kept state

theorem raise {cause : SimulationTrap} (fault : IsPageFault cause.reason) :
    Storeless view
      (Machine.raise cause : Machine Reply σ SimulationTrap Fatal α) where
  storeless state := by
    refine ⟨fun after same => ?_, fun _ _ same => ?_⟩
    · cases same
      rfl
    · cases same
      exact fault

instance (reason : Fatal) :
    Storeless view
      (Machine.abort reason : Machine Reply σ SimulationTrap Fatal α) where
  storeless _ := ⟨nofun, nofun⟩

instance (condition : Bool) (reason : Fatal) :
    Storeless view (Machine.assert condition reason :
      Machine Reply σ SimulationTrap Fatal Unit) := by
  cases condition with
  | true => exact inferInstanceAs (Storeless view (pure ()))
  | false => exact inferInstanceAs (Storeless view (Machine.abort reason))

theorem request {question : Call} (quiet : StoresNoData question)
    (receive : Reply question → α) :
    Storeless view (Machine.request question receive :
      Machine Reply σ SimulationTrap Fatal α) where
  storeless state := by
    refine ⟨quiet, fun reply _ => ⟨fun after same => ?_, nofun⟩⟩
    cases same
    rfl

instance bind (machine : Machine Reply σ SimulationTrap Fatal α)
    (continuation : α → Machine Reply σ SimulationTrap Fatal β)
    [first : Storeless view machine]
    [rest : ∀ value, Storeless view (continuation value)] :
    Storeless view (machine >>= continuation) where
  storeless state := by
    rw [Machine.under_bind]
    refine (first.storeless state).mono fun _ outcome holds => ?_
    cases outcome with
    | done value middle =>
        have here := holds.1 middle rfl
        refine ((rest value).storeless middle).mono fun _ later ends => ?_
        exact ⟨fun after same => (ends.1 after same).trans here, ends.2⟩
    | trap cause middle =>
        refine ⟨fun after same => ?_, fun _ _ same => ?_⟩
        · cases same
          exact holds.1 middle rfl
        · cases same
          exact holds.2 cause middle rfl
    | abort reason => exact ⟨nofun, nofun⟩

instance ite (condition : Prop) [Decidable condition]
    (first second : Machine Reply σ SimulationTrap Fatal α)
    [left : Storeless view first] [right : Storeless view second] :
    Storeless view (if condition then first else second) := by
  split
  · exact left
  · exact right

/-- A handler that raises the trap again, under another cause perhaps. -/
theorem relabel {relabel : SimulationTrap → SimulationTrap}
    (faults : ∀ cause, IsPageFault cause.reason →
      IsPageFault (relabel cause).reason)
    (machine : Machine Reply σ SimulationTrap Fatal α)
    [storeless : Storeless view machine] :
    Storeless view (Machine.catchTrap machine fun cause =>
      Machine.raise (relabel cause)) where
  storeless state := by
    rw [Machine.under_catchTrap]
    refine (storeless.storeless state).mono fun _ outcome holds => ?_
    cases outcome with
    | done value middle => exact holds
    | trap cause middle =>
        refine ⟨fun after same => ?_, fun _ _ same => ?_⟩
        · cases same
          exact holds.1 middle rfl
        · cases same
          exact faults cause (holds.2 cause middle rfl)
    | abort reason => exact holds

section Embedding

variable {C' : Type} {R' : C' → Type} {σ' : Type}
  (answer : (question : C') →
    Machine Reply σ SimulationTrap Fatal (R' question))

theorem answering [answers : ∀ question, Storeless view (answer question)]
    (program : Program R' α) :
    Storeless view (Machine.answering answer program) := by
  induction program with
  | ret result => exact inferInstanceAs (Storeless view (pure result))
  | call question next inductionHypothesis =>
      rw [Machine.answering_call]
      exact bind _ _

/-- What holds of every result of a program holds of every result of the
answered program. -/
theorem all_answering {property : α → Prop} {program : Program R' α}
    (holds : program.All property) (state : σ) :
    (Machine.answering answer program state).All fun outcome =>
      ∀ value after, outcome = .done value after → property value := by
  induction program generalizing state with
  | ret result =>
      rintro value after ⟨⟩
      exact holds
  | call question next inductionHypothesis =>
      rw [Machine.answering_call, Machine.all_bind, Program.all_iff_reaches]
      intro outcome _
      cases outcome with
      | done reply middle => exact inductionHypothesis reply (holds reply) _
      | trap cause middle => exact nofun
      | abort reason => exact nofun

/-- A machine on a part of the state that traps with page faults. -/
theorem embed [answers : ∀ question, Storeless view (answer question)]
    (read : σ → σ') (write : σ' → σ → σ)
    (kept : ∀ part state, view (write part state) = view state)
    {machine : Machine R' σ' SimulationTrap Fatal α}
    (faults : ∀ part, (machine part).All fun outcome =>
      ∀ cause after, outcome = .trap cause after → IsPageFault cause.reason) :
    Storeless view (Machine.embed answer read write machine) := by
  have written (part : σ') : Storeless view
      (Machine.modifies (R := Reply) (τ := SimulationTrap) (ε := Fatal)
        (write part)) :=
    modifies (kept part)
  have asks (part : σ') : Storeless view
      (Machine.answering answer (machine part)) :=
    answering answer (machine part)
  have answered (part : σ') :
      Storeless view (Machine.answering answer (machine part) >>=
        Machine.writeBack write) := by
    refine ⟨fun state => ?_⟩
    rw [Machine.under_bind]
    refine ((asks part).storeless state |>.and_all
      (all_answering answer (faults part) state)).mono
        fun _ outcome holds => ?_
    obtain ⟨⟨keeps, traps⟩, ended⟩ := holds
    cases outcome with
    | done result middle =>
        have ending : Storeless view
            (Machine.writeBack (R := Reply) write result) := by
          cases result with
          | done value part => exact bind _ _
          | trap cause part =>
              have raises : Storeless view (Machine.raise cause :
                  Machine Reply σ SimulationTrap Fatal α) :=
                raise (ended _ _ rfl cause part rfl)
              exact bind _ _
          | abort reason =>
              exact inferInstanceAs (Storeless view (Machine.abort reason))
        refine (ending.storeless middle).mono fun _ later ends => ?_
        exact ⟨fun after same => (ends.1 after same).trans (keeps _ rfl),
          ends.2⟩
    | trap cause middle =>
        refine ⟨fun after same => ?_, fun _ _ same => ?_⟩
        · cases same
          exact keeps _ rfl
        · cases same
          exact traps cause middle rfl
    | abort reason => exact ⟨nofun, nofun⟩
  exact bind _ _

end Embedding

end Storeless

end Amo

end RiscvVp
