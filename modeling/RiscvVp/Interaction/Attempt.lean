import RiscvVp.Interaction.Machine

/-!
# Surroundings that refuse

A handler may refuse a request instead of answering it.  A refusal cuts the
program short.  A machine that is cut short traps, and its state is the one it
started from, since nothing has been written back.
-/

namespace RiscvVp.Interaction

variable {C : Type} {R : C → Type} {σ τ ε α β W : Type}

namespace Program

/-- Run against a handler that may refuse. -/
def attempt (refused : τ → α)
    (handle : (request : C) → W → Except τ (R request × W)) :
    Program R α → W → α × W
  | .ret result, world => (result, world)
  | .call request next, world =>
      match handle request world with
      | .error cause => (refused cause, world)
      | .ok answered => (next answered.1).attempt refused handle answered.2

variable (refused : τ → α)
  (handle : (request : C) → W → Except τ (R request × W))

@[simp]
theorem attempt_ret (result : α) (world : W) :
    (Program.ret result : Program R α).attempt refused handle world =
      (result, world) :=
  rfl

theorem attempt_call (request : C) (next : R request → Program R α)
    (world : W) :
    (Program.call request next).attempt refused handle world =
      match handle request world with
      | .error cause => (refused cause, world)
      | .ok answered =>
          (next answered.1).attempt refused handle answered.2 := by
  rw [attempt]

/-- What holds of every result and of a refusal holds of the result. -/
theorem All.attempt {program : Program R α} {property : α → Prop}
    (holds : program.All property)
    (cut : ∀ cause, property (refused cause)) (world : W) :
    property (program.attempt refused handle world).1 := by
  induction program generalizing world with
  | ret result => exact holds
  | call request next inductionHypothesis =>
      rw [attempt_call]
      cases handle request world with
      | error cause => exact cut cause
      | ok answered => exact inductionHypothesis _ (holds answered.1) _

variable {handle}

/-- What every answer keeps of the world is kept. -/
theorem attempt_keeps {invariant : W → Prop}
    (kept : ∀ request world answered,
      handle request world = .ok answered → invariant world →
        invariant answered.2)
    (program : Program R α) {world : W} (start : invariant world) :
    invariant (program.attempt refused handle world).2 := by
  induction program generalizing world with
  | ret result => exact start
  | call request next inductionHypothesis =>
      rw [attempt_call]
      cases answer : handle request world with
      | error cause => exact start
      | ok answered =>
          exact inductionHypothesis _ (kept request world answered answer start)

end Program

deriving instance DecidableEq for Outcome

namespace Outcome

/-- How it ended, without the state. -/
def answer : Outcome σ τ ε α → Outcome Unit τ ε α
  | .done value _ => .done value ()
  | .trap cause _ => .trap cause ()
  | .abort reason => .abort reason

end Outcome

namespace Machine

variable (handle : (request : C) → W → Except τ (R request × W))

/-- Run from a state against a handler that may refuse. -/
def attempt (machine : Machine R σ τ ε α) (state : σ) (world : W) :
    Outcome σ τ ε α × W :=
  (machine state).attempt (fun cause => .trap cause state) handle world

variable {handle}

/-- A sequence that is cut short from a state keeps that state. -/
theorem attempt_andThen (start : σ) (program : Program R (Outcome σ τ ε α))
    (continuation : α → Machine R σ τ ε β) (world : W) :
    (program >>= andThen continuation).attempt
        (fun cause => Outcome.trap cause start) handle world =
      match program.attempt (fun cause => .trap cause start) handle world with
      | (.done value state, later) =>
          (continuation value state).attempt
            (fun cause => .trap cause start) handle later
      | (.trap cause state, later) => (.trap cause state, later)
      | (.abort reason, later) => (.abort reason, later) := by
  induction program generalizing world with
  | ret outcome =>
      cases outcome with
      | done value state => rfl
      | trap cause state => rfl
      | abort reason => rfl
  | call request next inductionHypothesis =>
      rw [Program.call_bind, Program.attempt_call, Program.attempt_call]
      cases handle request world with
      | error cause => rfl
      | ok answered => exact inductionHypothesis answered.1 answered.2

end Machine

end RiscvVp.Interaction
