import RiscvVp.Interaction.Machine

/-!
# Programs whose surroundings may misbehave

Some replies are benign.  `Watch benign good bad` says how a program ends in
every surroundings: well as long as every reply is benign, badly as soon as one
is not.  What is well may depend on the exchanges.  With `bad` the negation of
what `good` promises, the benign replies are exactly those under which the
program keeps the promise.
-/

namespace RiscvVp.Interaction

/-- A request with its reply. -/
structure Exchange {C : Type} (R : C → Type) : Type where
  request : C
  reply : R request

variable {C : Type} {R : C → Type} {α β : Type}

namespace Program

def Watch (benign : (request : C) → R request → Prop) :
    (List (Exchange R) → α → Prop) → (α → Prop) → Program R α → Prop
  | good, _, .ret result => good [] result
  | good, bad, .call request next => ∀ reply,
      (benign request reply → Watch benign
        (fun later => good (⟨request, reply⟩ :: later)) bad (next reply)) ∧
        (¬ benign request reply → (next reply).All bad)

variable {benign : (request : C) → R request → Prop}
  {good : List (Exchange R) → α → Prop} {bad : α → Prop}

theorem Watch.mono {better : List (Exchange R) → α → Prop} {worse : α → Prop}
    {program : Program R α} (watch : program.Watch benign better worse)
    (well : ∀ exchanges result, better exchanges result →
      good exchanges result)
    (ill : ∀ result, worse result → bad result) :
    program.Watch benign good bad := by
  induction program generalizing better good with
  | ret result => exact well [] result watch
  | call request next inductionHypothesis =>
      intro reply
      obtain ⟨kept, broken⟩ := watch reply
      refine ⟨fun met => inductionHypothesis reply (kept met) ?_,
        fun unmet => (broken unmet).mono ill⟩
      exact fun later => well (⟨request, reply⟩ :: later)

theorem watch_bind (program : Program R α) (continuation : α → Program R β)
    (good : List (Exchange R) → β → Prop) (bad : β → Prop) :
    (program >>= continuation).Watch benign good bad ↔
      program.Watch benign
        (fun exchanges result => (continuation result).Watch benign
          (fun later => good (exchanges ++ later)) bad)
        (fun result => (continuation result).All bad) := by
  induction program generalizing good with
  | ret result => exact Iff.rfl
  | call request next inductionHypothesis =>
      apply forall_congr'
      intro reply
      apply and_congr
      · exact imp_congr_right fun _ => inductionHypothesis reply _
      · apply imp_congr_right
        intro _
        exact all_bind (next reply) continuation bad

end Program

namespace Machine

variable {σ τ ε : Type} {benign : (request : C) → R request → Prop}
  {good : List (Exchange R) → Outcome σ τ ε β → Prop}
  {bad : Outcome σ τ ε β → Prop}

/-- A sequence: what the first machine's good and bad outcomes lead to. -/
theorem watch_bind {machine : Machine R σ τ ε α}
    {continuation : α → Machine R σ τ ε β} {state : σ}
    {well : List (Exchange R) → Outcome σ τ ε α → Prop}
    {ill : Outcome σ τ ε α → Prop}
    (first : (machine state).Watch benign well ill)
    (rest : ∀ exchanges value middle, well exchanges (.done value middle) →
      (continuation value middle).Watch benign
        (fun later => good (exchanges ++ later)) bad)
    (wellTraps : ∀ exchanges cause middle,
      well exchanges (.trap cause middle) →
        good exchanges (.trap cause middle))
    (wellAborts : ∀ exchanges reason, well exchanges (.abort reason) →
      good exchanges (.abort reason))
    (restIll : ∀ value middle, ill (.done value middle) →
      (continuation value middle).All bad)
    (illTraps : ∀ cause middle, ill (.trap cause middle) →
      bad (.trap cause middle))
    (illAborts : ∀ reason, ill (.abort reason) → bad (.abort reason)) :
    ((machine >>= continuation) state).Watch benign good bad := by
  rw [bind_apply, Program.watch_bind]
  apply first.mono
  · intro exchanges outcome holds
    cases outcome with
    | done value middle => exact rest exchanges value middle holds
    | trap cause middle =>
        change good (exchanges ++ []) _
        rw [List.append_nil]
        exact wellTraps exchanges cause middle holds
    | abort reason =>
        change good (exchanges ++ []) _
        rw [List.append_nil]
        exact wellAborts exchanges reason holds
  · intro outcome holds
    cases outcome with
    | done value middle => exact restIll value middle holds
    | trap cause middle => exact illTraps cause middle holds
    | abort reason => exact illAborts reason holds

end Machine

end RiscvVp.Interaction
