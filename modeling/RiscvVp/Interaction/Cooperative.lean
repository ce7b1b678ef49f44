import Mathlib.Logic.Function.Basic

/-!
# Cooperative processes

Processes that have control one at a time and give it up only where they wait:
for one of several events, or for time to pass.  A notification is immediate.
It reaches the processes that wait for the event at that moment, and no others.
-/

namespace RiscvVp

namespace Cooperative

variable {π ε : Type}

/-- What a process is up to.  The one that has control is `ready` as well. -/
inductive Phase (ε : Type) : Type
  | ready
  | waiting (events : List ε)
  | delayed
  | finished
  deriving DecidableEq

/-- The process that has control, and what all are up to. -/
structure Kernel (π ε : Type) where
  current : Option π
  phase : π → Phase ε

namespace Phase

variable [DecidableEq ε]

/-- The phase of a process after some events have been notified. -/
def notified (events : List ε) : Phase ε → Phase ε
  | .waiting awaited =>
      if ∃ event ∈ events, event ∈ awaited then .ready else .waiting awaited
  | phase => phase

variable {events : List ε} {phase : Phase ε}

theorem notified_waiting {awaited : List ε} {event : ε}
    (notifies : event ∈ events) (awaits : event ∈ awaited) :
    (waiting awaited).notified events = .ready :=
  if_pos ⟨event, notifies, awaits⟩

/-- A notification does not reach a process that waits for something else. -/
theorem notified_eq_self
    (apart : ∀ awaited, phase = .waiting awaited →
      ∀ event ∈ events, event ∉ awaited) :
    phase.notified events = phase := by
  cases phase with
  | waiting awaited =>
      apply if_neg
      rintro ⟨event, notifies, awaits⟩
      exact apart awaited rfl event notifies awaits
  | ready => rfl
  | delayed => rfl
  | finished => rfl

end Phase

namespace Kernel

variable (kernel : Kernel π ε)

/-- The process that has control is ready. -/
def Consistent : Prop :=
  ∀ process, kernel.current = some process → kernel.phase process = .ready

variable {kernel}

/-! ## Notification -/

section Notify

variable [DecidableEq ε]

/-- `notify()` of one event after another. -/
def notify (events : List ε) (kernel : Kernel π ε) : Kernel π ε where
  current := kernel.current
  phase process := (kernel.phase process).notified events

@[simp]
theorem phase_notify (events : List ε) (process : π) :
    (kernel.notify events).phase process =
      (kernel.phase process).notified events :=
  rfl

theorem Consistent.notify (consistent : kernel.Consistent) (events : List ε) :
    (kernel.notify events).Consistent := by
  intro process controls
  rw [phase_notify, consistent process controls]
  rfl

/-- A process that is ready takes control. -/
def dispatch (process : π) (kernel : Kernel π ε) : Option (Kernel π ε) :=
  if kernel.current = none ∧ kernel.phase process = .ready then
    some { kernel with current := some process }
  else none

theorem dispatch_eq_some {process : π} {later : Kernel π ε}
    (dispatched : kernel.dispatch process = some later) :
    kernel.phase process = .ready ∧
      later = { kernel with current := some process } := by
  unfold dispatch at dispatched
  split at dispatched
  next able => exact ⟨able.2, (Option.some.inj dispatched).symm⟩
  next => cases dispatched

theorem consistent_dispatch {process : π} {later : Kernel π ε}
    (dispatched : kernel.dispatch process = some later) :
    later.Consistent := by
  obtain ⟨ready, rfl⟩ := dispatch_eq_some dispatched
  intro other controls
  cases controls
  exact ready

end Notify

/-! ## Waiting -/

section Suspend

variable [DecidableEq π]

/-- The process gives up control. -/
def suspend (process : π) (phase : Phase ε) (kernel : Kernel π ε) :
    Kernel π ε where
  current := none
  phase := Function.update kernel.phase process phase

@[simp]
theorem phase_suspend_self (process : π) (phase : Phase ε) :
    (kernel.suspend process phase).phase process = phase :=
  Function.update_self ..

theorem phase_suspend_of_ne {process other : π} (different : other ≠ process)
    (phase : Phase ε) :
    (kernel.suspend process phase).phase other = kernel.phase other :=
  Function.update_of_ne different ..

theorem consistent_suspend (process : π) (phase : Phase ε) :
    (kernel.suspend process phase).Consistent :=
  fun _ controls => nomatch controls

variable [DecidableEq ε]

/-- The time that a process waits for has passed. -/
def elapse (process : π) (kernel : Kernel π ε) : Option (Kernel π ε) :=
  if kernel.phase process = .delayed then
    some { kernel with phase := Function.update kernel.phase process .ready }
  else none

theorem elapse_eq_some {process : π} {later : Kernel π ε}
    (elapsed : kernel.elapse process = some later) :
    kernel.phase process = .delayed ∧ later = { kernel with
      phase := Function.update kernel.phase process .ready } := by
  unfold elapse at elapsed
  split at elapsed
  next able => exact ⟨able, (Option.some.inj elapsed).symm⟩
  next => cases elapsed

theorem Consistent.elapse (consistent : kernel.Consistent) {process : π}
    {later : Kernel π ε} (elapsed : kernel.elapse process = some later) :
    later.Consistent := by
  obtain ⟨_, rfl⟩ := elapse_eq_some elapsed
  intro other controls
  by_cases same : other = process
  · subst same
    exact Function.update_self ..
  · exact (Function.update_of_ne same ..).trans (consistent other controls)

end Suspend

end Kernel

end Cooperative

end RiscvVp
