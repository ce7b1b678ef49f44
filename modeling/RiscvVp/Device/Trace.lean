/-!
# States and steps along a trace

A system takes steps on events.  Along every list of events, a property of the
states and a condition on the steps can be traded for each other, if one step
turns the property into the condition.
-/

namespace RiscvVp

namespace Trace

section Steps

variable {σ ε : Type} (steps : σ → ε → σ → Prop)

/-- A property holds of every state that the events reach. -/
def EveryState (holds : σ → Prop) : List ε → σ → Prop
  | [], state => holds state
  | event :: events, state => holds state ∧
      ∀ later, steps state event later → EveryState holds events later

/-- A condition on a state and the event that comes next holds of every step
that the events take. -/
def EveryStep (meets : σ → ε → Prop) : List ε → σ → Prop
  | [], _ => True
  | event :: events, state => ∀ later, steps state event later →
      meets state event ∧ EveryStep meets events later

variable {steps}

theorem EveryState.first {holds : σ → Prop} {events : List ε} {state : σ}
    (every : EveryState steps holds events state) : holds state := by
  cases events with
  | nil => exact every
  | cons event events => exact every.1

theorem EveryState.imp {holds weaker : σ → Prop}
    (implies : ∀ state, holds state → weaker state) {events : List ε}
    {state : σ} (every : EveryState steps holds events state) :
    EveryState steps weaker events state := by
  induction events generalizing state with
  | nil => exact implies state every
  | cons event events inductionHypothesis =>
      exact ⟨implies state every.1, fun later stepped =>
        inductionHypothesis (every.2 later stepped)⟩

/-- The state that a run ends in is reached. -/
theorem EveryState.of_foldlM {step : σ → ε → Option σ}
    (taken : ∀ state event later, step state event = some later →
      steps state event later)
    {holds : σ → Prop} {events : List ε} {state last : σ}
    (every : EveryState steps holds events state)
    (ran : events.foldlM step state = some last) : holds last := by
  induction events generalizing state with
  | nil =>
      cases ran
      exact every
  | cons event events inductionHypothesis =>
      simp only [List.foldlM_cons, Option.bind_eq_bind,
        Option.bind_eq_some_iff] at ran
      obtain ⟨next, stepped, rest⟩ := ran
      exact inductionHypothesis (every.2 next (taken state event next stepped)) rest

/-- What every step that meets the condition preserves holds of every state. -/
theorem everyState_of_everyStep {invariant : σ → Prop} {meets : σ → ε → Prop}
    (kept : ∀ state event later, invariant state → meets state event →
      steps state event later → invariant later)
    {events : List ε} {state : σ} (holds : invariant state)
    (every : EveryStep steps meets events state) :
    EveryState steps invariant events state := by
  induction events generalizing state with
  | nil => exact holds
  | cons event events inductionHypothesis =>
      refine ⟨holds, fun later stepped => ?_⟩
      obtain ⟨met, rest⟩ := every later stepped
      exact inductionHypothesis (kept state event later holds met stepped) rest

/-- If the property survives a step exactly when the condition is met, it holds
along a trace exactly when every step meets the condition. -/
theorem everyState_iff_everyStep {invariant holds : σ → Prop}
    {meets : σ → ε → Prop}
    (kept : ∀ state event later, invariant state → steps state event later →
      invariant later)
    (exact_step : ∀ state event later, invariant state → holds state →
      steps state event later → (holds later ↔ meets state event))
    {events : List ε} {state : σ} (start : invariant state)
    (first : holds state) :
    EveryState steps holds events state ↔ EveryStep steps meets events state := by
  induction events generalizing state with
  | nil => simp [EveryState, EveryStep, first]
  | cons event events inductionHypothesis =>
      constructor
      · rintro ⟨_, rest⟩ later stepped
        have restLater := rest later stepped
        have holdsLater := restLater.first
        exact ⟨(exact_step state event later start first stepped).mp holdsLater,
          (inductionHypothesis (kept state event later start stepped)
            holdsLater).mp restLater⟩
      · intro every
        refine ⟨first, fun later stepped => ?_⟩
        obtain ⟨met, rest⟩ := every later stepped
        have holdsLater :=
          (exact_step state event later start first stepped).mpr met
        exact (inductionHypothesis (kept state event later start stepped)
          holdsLater).mpr rest

/-- The same where the invariant is kept by the steps that meet the condition
only, and the property is lost by every other step. -/
theorem everyState_iff_of_lost {invariant holds : σ → Prop}
    {meets : σ → ε → Prop}
    (implied : ∀ state, invariant state → holds state)
    (kept : ∀ state event later, invariant state → meets state event →
      steps state event later → invariant later)
    (lost : ∀ state event later, ¬ meets state event →
      steps state event later → ¬ holds later)
    {events : List ε} {state : σ} (start : invariant state) :
    EveryState steps holds events state ↔ EveryStep steps meets events state := by
  constructor
  · intro every
    induction events generalizing state with
    | nil => trivial
    | cons event events inductionHypothesis =>
        intro later stepped
        have rest := every.2 later stepped
        by_cases met : meets state event
        · exact ⟨met, inductionHypothesis (kept state event later start met stepped)
            rest⟩
        · exact absurd rest.first (lost state event later met stepped)
  · intro every
    exact (everyState_of_everyStep kept start every).imp implied

/-- A condition on a state and the event that comes next holds wherever an event
comes, also of one that cannot be taken. -/
def EveryEvent (steps : σ → ε → σ → Prop) (meets : σ → ε → Prop) :
    List ε → σ → Prop
  | [], _ => True
  | event :: events, state => meets state event ∧
      ∀ later, steps state event later → EveryEvent steps meets events later

/-- Two conditions agree along a trace if they agree wherever an invariant holds
that the steps keep which meet them. -/
theorem everyEvent_iff {invariant : σ → Prop} {meets other : σ → ε → Prop}
    (agree : ∀ state event, invariant state →
      (meets state event ↔ other state event))
    (kept : ∀ state event later, invariant state → meets state event →
      steps state event later → invariant later)
    {events : List ε} {state : σ} (start : invariant state) :
    EveryEvent steps meets events state ↔
      EveryEvent steps other events state := by
  induction events generalizing state with
  | nil => exact Iff.rfl
  | cons event events inductionHypothesis =>
      rw [EveryEvent, EveryEvent, ← agree state event start]
      apply and_congr_right
      intro met
      apply forall_congr'
      intro later
      apply imp_congr_right
      intro stepped
      exact inductionHypothesis (kept state event later start met stepped)

/-- Two conditions that agree wherever an invariant holds agree along a
trace. -/
theorem everyEvent_congr {invariant : σ → Prop} {meets other : σ → ε → Prop}
    (kept : ∀ state event later, invariant state → steps state event later →
      invariant later)
    (agree : ∀ state event, invariant state →
      (meets state event ↔ other state event))
    {events : List ε} {state : σ} (start : invariant state) :
    EveryEvent steps meets events state ↔
      EveryEvent steps other events state :=
  everyEvent_iff agree
    (fun state event later holds _ stepped =>
      kept state event later holds stepped)
    start

end Steps

end Trace

end RiscvVp
