import RiscvVp.Interaction.Machine

/-!
# What a machine asks

`Asking permitted machine` says that a machine makes permitted requests only;
the judgement follows the structure of the machine.  What every permitted
exchange preserves of the surroundings is preserved by the machine.
-/

namespace RiscvVp.Interaction

namespace Program

variable {C : Type} {R : C → Type} {α β : Type} {permitted : C → Prop}

theorem Asks.bind {program : Program R α} {continuation : α → Program R β}
    (first : program.Asks permitted)
    (rest : ∀ result, (continuation result).Asks permitted) :
    (program >>= continuation).Asks permitted := by
  rw [Asks, under_bind]
  exact Under.mono first fun _ result _ => rest result

/-- What the permitted exchanges preserve of the monitor is preserved. -/
theorem Asks.under {G : Type} {monitor : Monitor R G} {kept : G → Prop}
    {program : Program R α} (asks : program.Asks permitted)
    (meets : ∀ state request, permitted request → kept state →
      monitor.requires state request)
    (preserved : ∀ state request reply, permitted request →
      monitor.allows state request reply → kept state →
        kept (monitor.next state request reply))
    {state : G} (start : kept state) :
    program.Under monitor state fun last _ => kept last := by
  induction program generalizing state with
  | ret result => exact start
  | call request next inductionHypothesis =>
      refine ⟨meets state request asks.1 start, fun reply allowed => ?_⟩
      apply inductionHypothesis reply (asks.2 reply trivial)
      exact preserved state request reply asks.1 allowed start

/-- A run leaves surroundings that every permitted exchange leaves as they
are. -/
theorem Asks.run_snd {W : Type} {handle : (request : C) → W → R request × W}
    {world : W} {program : Program R α} (asks : program.Asks permitted)
    (left : ∀ request, permitted request → (handle request world).2 = world) :
    (program.run handle world).2 = world := by
  induction program with
  | ret result => rfl
  | call request next inductionHypothesis =>
      rw [run_call, left request asks.1]
      exact inductionHypothesis _ (asks.2 _ trivial)

end Program

namespace Machine

variable {C : Type} {R : C → Type} {σ τ ε α β : Type}

/-- The machine makes no request but permitted ones. -/
class Asking (permitted : C → Prop) (machine : Machine R σ τ ε α) : Prop where
  asking : ∀ state, (machine state).Asks permitted

namespace Asking

variable {permitted : C → Prop}

instance (value : α) :
    Asking permitted (Pure.pure value : Machine R σ τ ε α) where
  asking _ := trivial

instance (read : σ → α) :
    Asking permitted (Machine.reads read : Machine R σ τ ε α) where
  asking _ := trivial

instance (update : σ → σ) :
    Asking permitted (Machine.modifies update : Machine R σ τ ε Unit) where
  asking _ := trivial

instance (cause : τ) :
    Asking permitted (Machine.raise cause : Machine R σ τ ε α) where
  asking _ := trivial

instance (reason : ε) :
    Asking permitted (Machine.abort reason : Machine R σ τ ε α) where
  asking _ := trivial

instance (condition : Bool) (reason : ε) :
    Asking permitted
      (Machine.assert condition reason : Machine R σ τ ε Unit) := by
  cases condition with
  | true => exact inferInstanceAs (Asking permitted (Pure.pure ()))
  | false => exact inferInstanceAs (Asking permitted (Machine.abort reason))

theorem request {question : C} (member : permitted question)
    (receive : R question → α) :
    Asking permitted
      (Machine.request question receive : Machine R σ τ ε α) where
  asking _ := ⟨member, fun _ _ => trivial⟩

instance bind (machine : Machine R σ τ ε α)
    (continuation : α → Machine R σ τ ε β)
    [first : Asking permitted machine]
    [rest : ∀ value, Asking permitted (continuation value)] :
    Asking permitted (machine >>= continuation) where
  asking state := by
    rw [bind_apply]
    refine (first.asking state).bind fun outcome => ?_
    cases outcome with
    | done value middle => exact (rest value).asking middle
    | trap cause middle => trivial
    | abort reason => trivial

instance ite (condition : Prop) [Decidable condition]
    (first second : Machine R σ τ ε α)
    [left : Asking permitted first] [right : Asking permitted second] :
    Asking permitted (if condition then first else second) := by
  split
  · exact left
  · exact right

instance catchTrap (machine : Machine R σ τ ε α)
    (handler : τ → Machine R σ τ ε α)
    [first : Asking permitted machine]
    [rest : ∀ cause, Asking permitted (handler cause)] :
    Asking permitted (Machine.catchTrap machine handler) where
  asking state := by
    refine (first.asking state).bind fun outcome => ?_
    cases outcome with
    | done value middle => trivial
    | trap cause middle => exact (rest cause).asking middle
    | abort reason => trivial

instance answering {C' : Type} {R' : C' → Type}
    (answer : (question : C') → Machine R σ τ ε (R' question))
    [each : ∀ question, Asking permitted (answer question)]
    (program : Program R' α) :
    Asking permitted (Machine.answering answer program) := by
  induction program with
  | ret result => exact inferInstanceAs (Asking permitted (Pure.pure result))
  | call question next inductionHypothesis =>
      exact inferInstanceAs <|
        Asking permitted <|
          answer question >>= fun reply =>
            Machine.answering answer (next reply)

/-- A program that makes only some requests, when the answers to these ask
for what is permitted. -/
theorem answering_of_asks {C' : Type} {R' : C' → Type}
    (answer : (question : C') → Machine R σ τ ε (R' question))
    {some : C' → Prop}
    (each : ∀ question, some question → Asking permitted (answer question))
    {program : Program R' α} (asks : program.Asks some) :
    Asking permitted (Machine.answering answer program) := by
  induction program with
  | ret result => exact inferInstanceAs (Asking permitted (Pure.pure result))
  | call question next inductionHypothesis =>
      have first := each question asks.1
      have rest := fun reply => inductionHypothesis reply (asks.2 reply trivial)
      exact inferInstanceAs <|
        Asking permitted <|
          answer question >>= fun reply =>
            Machine.answering answer (next reply)

instance embed {C' : Type} {R' : C' → Type} {σ' : Type}
    (answer : (question : C') → Machine R σ τ ε (R' question))
    [each : ∀ question, Asking permitted (answer question)]
    (read : σ → σ') (write : σ' → σ → σ)
    (machine : Machine R' σ' τ ε α) :
    Asking permitted (Machine.embed answer read write machine) := by
  have ends (outcome : Outcome σ' τ ε α) :
      Asking permitted (Machine.writeBack write outcome :
        Machine R σ τ ε α) := by
    cases outcome with
    | done value part =>
        exact inferInstanceAs <| Asking permitted <|
          Machine.modifies (write part) >>= fun _ => pure value
    | trap cause part =>
        exact inferInstanceAs <| Asking permitted <|
          Machine.modifies (write part) >>= fun _ => Machine.raise cause
    | abort reason => exact inferInstanceAs (Asking permitted (abort reason))
  have answers (part : σ') :
      Asking permitted (Machine.answering answer (machine part)) :=
    answering answer (machine part)
  refine @bind _ _ _ _ _ _ _ _ _ _ _ fun part => ?_
  exact @bind _ _ _ _ _ _ _ _ _ _ _ ends

end Asking

end Machine

end RiscvVp.Interaction
