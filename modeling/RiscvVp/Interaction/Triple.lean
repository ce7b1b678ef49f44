import RiscvVp.Interaction.Machine

/-!
# Preconditions and postconditions

`Achieves pre machine post` is partial correctness of a machine in its
surroundings: from a place and a state that meet the precondition, every run
that completes does so in a place and a state that meet the postcondition.
Nothing is said of a run that traps or aborts, except where a handler catches
the trap.
-/

namespace RiscvVp.Interaction

namespace Machine

variable {C : Type} {R : C → Type} {σ τ ε α β G : Type}
  {surroundings : Surroundings R G}

def Achieves (surroundings : Surroundings R G) (pre : G → σ → Prop)
    (machine : Machine R σ τ ε α) (post : α → G → σ → Prop) : Prop :=
  ∀ world state, pre world state →
    (machine state).Under surroundings.monitor world fun last outcome =>
      ∀ value after, outcome = .done value after → post value last after

namespace Achieves

variable {pre : G → σ → Prop}

theorem pure {post : α → G → σ → Prop} {value : α}
    (holds : ∀ world state, pre world state → post value world state) :
    Achieves surroundings pre
      (Pure.pure value : Machine R σ τ ε α) post := by
  intro world state met value' after same
  cases same
  exact holds world state met

theorem reads {post : α → G → σ → Prop} {view : σ → α}
    (holds : ∀ world state, pre world state →
      post (view state) world state) :
    Achieves surroundings pre
      (Machine.reads view : Machine R σ τ ε α) post := by
  intro world state met value after same
  cases same
  exact holds world state met

theorem modifies {post : Unit → G → σ → Prop} {update : σ → σ}
    (holds : ∀ world state, pre world state →
      post () world (update state)) :
    Achieves surroundings pre
      (Machine.modifies update : Machine R σ τ ε Unit) post := by
  intro world state met value after same
  cases same
  exact holds world state met

theorem abort {post : α → G → σ → Prop} {reason : ε} :
    Achieves surroundings pre
      (Machine.abort reason : Machine R σ τ ε α) post :=
  fun _ _ _ _ _ contrary => nomatch contrary

theorem assert {post : Unit → G → σ → Prop} {condition : Bool} {reason : ε}
    (holds : condition = true → ∀ world state, pre world state →
      post () world state) :
    Achieves surroundings pre
      (Machine.assert condition reason : Machine R σ τ ε Unit) post := by
  cases condition with
  | true => exact pure (holds rfl)
  | false => exact abort

theorem request {post : α → G → σ → Prop} {question : C}
    {receive : R question → α}
    (holds : ∀ world state reply, pre world state →
      surroundings.allows world question reply →
        post (receive reply) (surroundings.next world question reply) state) :
    Achieves surroundings pre
      (Machine.request question receive : Machine R σ τ ε α) post := by
  intro world state met
  refine ⟨trivial, fun reply allowed value after same => ?_⟩
  cases same
  exact holds world state reply met allowed

theorem bind {machine : Machine R σ τ ε α}
    {continuation : α → Machine R σ τ ε β} {middle : α → G → σ → Prop}
    {post : β → G → σ → Prop}
    (first : Achieves surroundings pre machine middle)
    (rest : ∀ value,
      Achieves surroundings (middle value) (continuation value) post) :
    Achieves surroundings pre (machine >>= continuation) post := by
  intro world state met
  rw [under_bind]
  refine (first world state met).mono fun last outcome holds => ?_
  cases outcome with
  | done value between =>
      exact rest value last between (holds value between rfl)
  | trap cause between => exact fun _ _ contrary => nomatch contrary
  | abort reason => exact fun _ _ contrary => nomatch contrary

theorem ite {condition : Prop} [Decidable condition]
    {first second : Machine R σ τ ε α} {post : α → G → σ → Prop}
    (left : condition → Achieves surroundings pre first post)
    (right : ¬ condition → Achieves surroundings pre second post) :
    Achieves surroundings pre (if condition then first else second) post := by
  split
  next holds => exact left holds
  next fails => exact right fails

/-- The handler starts where the trap was raised. -/
theorem catchTrap {machine : Machine R σ τ ε α}
    {handler : τ → Machine R σ τ ε α} {thrown : τ → G → σ → Prop}
    {post : α → G → σ → Prop}
    (completes : Achieves surroundings pre machine post)
    (raises : ∀ world state, pre world state →
      (machine state).Under surroundings.monitor world fun last outcome =>
        ∀ cause after, outcome = .trap cause after → thrown cause last after)
    (handles : ∀ cause,
      Achieves surroundings (thrown cause) (handler cause) post) :
    Achieves surroundings pre (Machine.catchTrap machine handler) post := by
  intro world state met
  rw [under_catchTrap]
  refine ((completes world state met).and (raises world state met)).mono
    fun last outcome holds => ?_
  cases outcome with
  | done value after => exact holds.1
  | trap cause after =>
      exact handles cause last after (holds.2 cause after rfl)
  | abort reason => exact holds.1

theorem mono {machine : Machine R σ τ ε α} {weaker : G → σ → Prop}
    {post stronger : α → G → σ → Prop}
    (achieves : Achieves surroundings weaker machine stronger)
    (before : ∀ world state, pre world state → weaker world state)
    (after : ∀ value world state, stronger value world state →
      post value world state) :
    Achieves surroundings pre machine post := by
  intro world state met
  refine (achieves world state (before world state met)).mono
    fun last outcome holds value final same => ?_
  exact after value last final (holds value final same)

end Achieves

end Machine

end RiscvVp.Interaction
