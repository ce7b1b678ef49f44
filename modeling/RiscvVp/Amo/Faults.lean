import Mathlib
import RiscvVp.Amo.Storeless

/-!
# The causes of the traps of an atomic operation

An atomic operation reads everything it needs before it stores: the word, and
the page table entries of the store's translation.  Its traps are those of a
store exactly when none of these reads ends with a load page fault.
-/

namespace RiscvVp

namespace Amo

open Interaction
open Rv32 (Call Reply StoreKind)

variable {σ κ α β G : Type}

/-- The causes that belong to stores and atomic operations. -/
def IsStoreFault (reason : ExceptionCode) : Prop :=
  reason = .storeAmoAddrMisaligned ∨ reason = .storeAmoAccessFault ∨
    reason = .storeAmoPageFault

/-- A trap of the machine has the cause of a store, and nothing in view has
changed by then and no data has been stored. -/
def FaultsAsStore (view : σ → κ)
    (machine : Machine Reply σ SimulationTrap Fatal α)
    (surroundings : Surroundings Reply G) (world : G) (state : σ) : Prop :=
  (machine state).Under (surroundings.noting stored).monitor (world, false)
    fun last outcome => ∀ cause after, outcome = .trap cause after →
      IsStoreFault cause.reason ∧ view after = view state ∧ last.2 = false

/-- The machine does not trap with a load page fault. -/
def Loads (machine : Machine Reply σ SimulationTrap Fatal α)
    (surroundings : Surroundings Reply G) (world : G) (state : σ) : Prop :=
  (machine state).Under surroundings.monitor world fun _ outcome =>
    ∀ cause after, outcome = .trap cause after →
      cause.reason ≠ .loadPageFault

theorem isStoreFault_iff {reason : ExceptionCode} (fault : IsPageFault reason) :
    IsStoreFault reason ↔ reason ≠ .loadPageFault := by
  rcases fault with rfl | rfl <;> simp [IsStoreFault]

/-- The relabelling of `execute_amo`. -/
def relabelled (trap : SimulationTrap) : SimulationTrap :=
  if trap.reason = .loadAccessFault then
    { trap with reason := .storeAmoAccessFault }
  else trap

theorem relabelled_reason_iff (trap : SimulationTrap) :
    (relabelled trap).reason = .loadPageFault ↔
      trap.reason = .loadPageFault := by
  unfold relabelled
  split
  next access => simp [access]
  next => exact Iff.rfl

/-- Page faults are raised again as they are. -/
theorem isPageFault_relabelled (trap : SimulationTrap)
    (fault : IsPageFault trap.reason) :
    IsPageFault (relabelled trap).reason := by
  have other : trap.reason ≠ .loadAccessFault := by
    rcases fault with same | same <;> simp [same]
  rw [relabelled, if_neg other]
  exact fault

/-- The last part of an atomic operation: when it traps, with the page fault
of a store, nothing has happened. -/
class Settles (view : σ → κ)
    (machine : Machine Reply σ SimulationTrap Fatal α) : Prop where
  settles : ∀ {G : Type} (surroundings : Surroundings Reply G) (world : G)
    (state : σ), (machine state).Under
      (surroundings.noting stored).monitor (world, false)
        fun last outcome => ∀ cause after, outcome = .trap cause after →
          cause.reason = .storeAmoPageFault ∧ view after = view state ∧
            last.2 = false

namespace Settles

variable {view : σ → κ}

/-- What does not trap may have done anything. -/
theorem of_untrapped (machine : Machine Reply σ SimulationTrap Fatal α)
    [untrapped : machine.Untrapped] : Settles view machine where
  settles surroundings world state := by
    refine ((untrapped.untrapped state).under _ (world, false)).mono
      fun last outcome trapless cause after trapped => ?_
    exact absurd trapped (trapless cause after)

/-- What follows does not trap. -/
theorem bind_untrapped (machine : Machine Reply σ SimulationTrap Fatal α)
    (continuation : α → Machine Reply σ SimulationTrap Fatal β)
    [first : Settles view machine]
    [rest : ∀ value, (continuation value).Untrapped] :
    Settles view (machine >>= continuation) where
  settles surroundings world state := by
    rw [Machine.under_bind]
    refine (first.settles surroundings world state).mono
      fun last outcome ends => ?_
    cases outcome with
    | done value middle =>
        refine (((rest value).untrapped middle).under _ last).mono
          fun later outcome trapless cause after trapped => ?_
        exact absurd trapped (trapless cause after)
    | trap cause middle =>
        rintro _ _ ⟨⟩
        exact ends cause middle rfl
    | abort reason => rintro _ _ ⟨⟩

/-- What comes before does not trap and stores nothing. -/
theorem storeless_bind (machine : Machine Reply σ SimulationTrap Fatal α)
    (continuation : α → Machine Reply σ SimulationTrap Fatal β)
    [untrapped : machine.Untrapped] [storeless : Storeless view machine]
    [rest : ∀ value, Settles view (continuation value)] :
    Settles view (machine >>= continuation) where
  settles surroundings world state := by
    rw [Machine.under_bind]
    have quiet : (machine state).Under
        (surroundings.noting stored).monitor (world, false) _ :=
      Program.Under.noting stored_of_storesNoData
        (storeless.storeless state) world false
    refine (quiet.and_all (untrapped.untrapped state)).mono
      fun last outcome holds => ?_
    obtain ⟨⟨unstored, kept, -⟩, trapless⟩ := holds
    cases outcome with
    | done value middle =>
        have settled := (rest value).settles surroundings last.1 middle
        rw [← unstored] at settled
        refine settled.mono fun later outcome ends cause after trapped => ?_
        obtain ⟨reason, same, unstoredLater⟩ := ends cause after trapped
        exact ⟨reason, same.trans (kept middle rfl),
          unstoredLater.trans unstored⟩
    | trap cause middle => exact absurd rfl (trapless cause middle)
    | abort reason => rintro _ _ ⟨⟩

end Settles

section Sequence

variable {surroundings : Surroundings Reply G} {world : G} {state : σ}

/-- Everything is read before the last part. -/
theorem faultsAsStore_bind_iff (view : σ → κ)
    (reads : Machine Reply σ SimulationTrap Fatal α)
    (rest : α → Machine Reply σ SimulationTrap Fatal β)
    [storeless : Storeless view reads]
    [settling : ∀ value, Settles view (rest value)] :
    FaultsAsStore view (reads >>= rest) surroundings world state ↔
      Loads reads surroundings world state := by
  have known : (reads state).Under (surroundings.noting stored).monitor
      (world, false) _ :=
    Program.Under.noting stored_of_storesNoData (storeless.storeless state)
      world false
  rw [FaultsAsStore, Machine.under_bind]
  refine Iff.trans (known.congr fun last outcome holds => ?_)
    (Program.under_noting_iff world false (reads state) _)
  obtain ⟨unstored, kept, traps⟩ := holds
  cases outcome with
  | done value middle =>
      refine iff_of_true ?_ (by rintro _ _ ⟨⟩)
      have settled := (settling value).settles surroundings last.1 middle
      rw [← unstored] at settled
      refine settled.mono fun later outcome ends cause after trapped => ?_
      obtain ⟨reason, same, unstoredLater⟩ := ends cause after trapped
      exact ⟨.inr (.inr reason), same.trans (kept middle rfl),
        unstoredLater.trans unstored⟩
  | trap cause middle =>
      have fault := isStoreFault_iff (traps cause middle rfl)
      constructor
      · rintro holds _ _ ⟨⟩
        exact fault.1 (holds cause middle rfl).1
      · rintro holds _ _ ⟨⟩
        exact ⟨fault.2 (holds cause middle rfl), kept middle rfl, unstored⟩
  | abort reason =>
      apply iff_of_true
      · rintro _ _ ⟨⟩
      · rintro _ _ ⟨⟩

/-- The relabelling does not change whether there is a load page fault. -/
theorem loads_relabelled_bind_iff
    (load : Machine Reply σ SimulationTrap Fatal α)
    (rest : α → Machine Reply σ SimulationTrap Fatal β) :
    Loads (Machine.catchTrap load
        (fun cause => Machine.raise (relabelled cause)) >>= rest) surroundings world state ↔
      Loads (load >>= rest) surroundings world state := by
  rw [Loads, Loads, Machine.under_bind, Machine.under_bind,
    Machine.under_catchTrap]
  have anything : (load state).Under surroundings.monitor world
      fun _ _ => True :=
    Program.All.under _ ((Program.all_iff_reaches _ _).2 fun _ _ => trivial) _
  refine anything.congr fun last outcome _ => ?_
  cases outcome with
  | done value middle => exact Iff.rfl
  | trap cause middle =>
      constructor
      · rintro holds _ _ ⟨⟩
        exact (relabelled_reason_iff cause).not.1 (holds _ _ rfl)
      · rintro holds _ _ ⟨⟩
        exact (relabelled_reason_iff cause).not.2 (holds _ _ rfl)
  | abort reason => exact Iff.rfl

end Sequence

end Amo

end RiscvVp
