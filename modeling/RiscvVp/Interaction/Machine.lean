import RiscvVp.Interaction.Program

/-!
# Imperative programs with traps and aborts

A `Machine` carries a mutable state `σ` through an interactive program.  It
ends by completing, by raising a trap that keeps the state reached so far (the
way a C++ exception keeps every assignment made before the throw), or by
aborting, after which there is no state left to speak of.

`Untrapped` machines do not trap; the judgement is a class, so that it follows
a machine's own structure.
-/

namespace RiscvVp.Interaction

/-- How a machine ends. -/
inductive Outcome (σ τ ε α : Type) : Type
  | done (value : α) (state : σ)
  | trap (cause : τ) (state : σ)
  | abort (reason : ε)

namespace Outcome

variable {σ τ ε α β : Type}

/-- The state that survives, if one does. -/
def state? : Outcome σ τ ε α → Option σ
  | .done _ state => some state
  | .trap _ state => some state
  | .abort _ => none

@[simp]
theorem state?_done (value : α) (state : σ) :
    (Outcome.done value state : Outcome σ τ ε α).state? = some state :=
  rfl

@[simp]
theorem state?_trap (cause : τ) (state : σ) :
    (Outcome.trap cause state : Outcome σ τ ε α).state? = some state :=
  rfl

@[simp]
theorem state?_abort (reason : ε) :
    (Outcome.abort reason : Outcome σ τ ε α).state? = none :=
  rfl

/-- The state that survives, if one does, has the property. -/
def Leaves (property : σ → Prop) (outcome : Outcome σ τ ε α) : Prop :=
  ∀ state, outcome.state? = some state → property state

@[simp]
theorem leaves_done (property : σ → Prop) (value : α) (state : σ) :
    (Outcome.done value state : Outcome σ τ ε α).Leaves property ↔
      property state := by
  simp [Leaves]

@[simp]
theorem leaves_trap (property : σ → Prop) (cause : τ) (state : σ) :
    (Outcome.trap cause state : Outcome σ τ ε α).Leaves property ↔
      property state := by
  simp [Leaves]

@[simp]
theorem leaves_abort (property : σ → Prop) (reason : ε) :
    (Outcome.abort reason : Outcome σ τ ε α).Leaves property := by
  simp [Leaves]

end Outcome

/-- A stateful interactive program. -/
def Machine {C : Type} (R : C → Type) (σ τ ε α : Type) : Type :=
  σ → Program R (Outcome σ τ ε α)

namespace Machine

variable {C : Type} {R : C → Type} {σ τ ε α β : Type}

/-- What follows a completed statement; traps and aborts pass through. -/
def andThen (continuation : α → Machine R σ τ ε β) :
    Outcome σ τ ε α → Program R (Outcome σ τ ε β)
  | .done value state => continuation value state
  | .trap cause state => .ret (.trap cause state)
  | .abort reason => .ret (.abort reason)

instance : Monad (Machine R σ τ ε) where
  pure value := fun state => .ret (.done value state)
  bind machine continuation := fun state =>
    machine state >>= andThen continuation

/-- Read something off the state. -/
def reads (view : σ → α) : Machine R σ τ ε α :=
  fun state => .ret (.done (view state) state)

/-- Assign. -/
def modifies (update : σ → σ) : Machine R σ τ ε Unit :=
  fun state => .ret (.done () (update state))

def raise (cause : τ) : Machine R σ τ ε α :=
  fun state => .ret (.trap cause state)

def abort (reason : ε) : Machine R σ τ ε α :=
  fun _ => .ret (.abort reason)

/-- The C++ `assert`: nothing when the condition holds, an abort otherwise. -/
def assert (condition : Bool) (reason : ε) : Machine R σ τ ε Unit :=
  if condition then pure () else abort reason

/-- Make a request and keep its reply, or what is wanted of it. -/
def request (question : C) (receive : R question → α := by exact id) :
    Machine R σ τ ε α :=
  fun state => .call question fun reply => .ret (.done (receive reply) state)

/-- Hand a trap, and the state it left, to a handler. -/
def catchTrap (machine : Machine R σ τ ε α)
    (handler : τ → Machine R σ τ ε α) : Machine R σ τ ε α :=
  fun state => machine state >>= fun
    | .done value state' => .ret (.done value state')
    | .trap cause state' => handler cause state'
    | .abort reason => .ret (.abort reason)

/-- Answer the requests of a stateless program by statements. -/
def answering {C' : Type} {R' : C' → Type}
    (answer : (question : C') → Machine R σ τ ε (R' question)) :
    Program R' α → Machine R σ τ ε α
  | .ret result => pure result
  | .call question next =>
      answer question >>= fun reply => answering answer (next reply)

/-- End as a machine on a part of the state has ended, with that part written
back. -/
def writeBack {σ' : Type} (write : σ' → σ → σ) :
    Outcome σ' τ ε α → Machine R σ τ ε α
  | .done value part => modifies (write part) >>= fun _ => pure value
  | .trap cause part => modifies (write part) >>= fun _ => raise cause
  | .abort reason => abort reason

/-- Run a machine that works on a part of the state, answering its requests
by statements. -/
def embed {C' : Type} {R' : C' → Type} {σ' : Type}
    (answer : (question : C') → Machine R σ τ ε (R' question))
    (read : σ → σ') (write : σ' → σ → σ)
    (machine : Machine R' σ' τ ε α) : Machine R σ τ ε α :=
  reads read >>= fun part =>
    answering answer (machine part) >>= writeBack write

section Equations

theorem bind_assoc {γ : Type} (machine : Machine R σ τ ε α)
    (first : α → Machine R σ τ ε β) (second : β → Machine R σ τ ε γ) :
    (machine >>= first >>= second) =
      (machine >>= fun value => first value >>= second) := by
  funext state
  change (machine state >>= andThen first >>= andThen second) =
    (machine state >>= andThen fun value => first value >>= second)
  rw [Program.bind_assoc]
  congr 1
  funext outcome
  cases outcome <;> rfl

@[simp]
theorem pure_apply (value : α) (state : σ) :
    (pure value : Machine R σ τ ε α) state = .ret (.done value state) :=
  rfl

@[simp]
theorem bind_apply (machine : Machine R σ τ ε α)
    (continuation : α → Machine R σ τ ε β) (state : σ) :
    (machine >>= continuation) state =
      (machine state >>= andThen continuation) :=
  rfl

@[simp]
theorem andThen_done (continuation : α → Machine R σ τ ε β)
    (value : α) (state : σ) :
    andThen continuation (.done value state) = continuation value state :=
  rfl

@[simp]
theorem andThen_trap (continuation : α → Machine R σ τ ε β)
    (cause : τ) (state : σ) :
    andThen continuation (.trap cause state) = .ret (.trap cause state) :=
  rfl

@[simp]
theorem andThen_abort (continuation : α → Machine R σ τ ε β)
    (reason : ε) :
    andThen continuation (.abort reason) = .ret (.abort reason) :=
  rfl

@[simp]
theorem reads_apply (view : σ → α) (state : σ) :
    (reads view : Machine R σ τ ε α) state =
      .ret (.done (view state) state) :=
  rfl

@[simp]
theorem modifies_apply (update : σ → σ) (state : σ) :
    (modifies update : Machine R σ τ ε Unit) state =
      .ret (.done () (update state)) :=
  rfl

@[simp]
theorem raise_apply (cause : τ) (state : σ) :
    (raise cause : Machine R σ τ ε α) state = .ret (.trap cause state) :=
  rfl

@[simp]
theorem abort_apply (reason : ε) (state : σ) :
    (abort reason : Machine R σ τ ε α) state = .ret (.abort reason) :=
  rfl

@[simp]
theorem assert_true (reason : ε) :
    (assert true reason : Machine R σ τ ε Unit) = pure () :=
  rfl

@[simp]
theorem assert_false (reason : ε) :
    (assert false reason : Machine R σ τ ε Unit) = abort reason :=
  rfl

@[simp]
theorem ite_apply (condition : Prop) [Decidable condition]
    (first second : Machine R σ τ ε α) (state : σ) :
    (if condition then first else second) state =
      if condition then first state else second state := by
  split <;> rfl

@[simp]
theorem request_apply (question : C) (receive : R question → α)
    (state : σ) :
    (request question receive : Machine R σ τ ε α) state =
      .call question fun reply => .ret (.done (receive reply) state) :=
  rfl

end Equations

section Answering

variable {C' : Type} {R' : C' → Type}
  (answer : (question : C') → Machine R σ τ ε (R' question))

@[simp]
theorem answering_ret (result : α) :
    answering answer (.ret result) = pure result :=
  rfl

@[simp]
theorem answering_call (question : C')
    (next : R' question → Program R' α) :
    answering answer (.call question next) =
      answer question >>= fun reply => answering answer (next reply) :=
  rfl

theorem answering_bind (program : Program R' α)
    (continuation : α → Program R' β) :
    answering answer (program >>= continuation) =
      answering answer program >>= fun result =>
        answering answer (continuation result) := by
  induction program with
  | ret result => rfl
  | call question next inductionHypothesis =>
      rw [Program.call_bind, answering_call, answering_call, bind_assoc]
      congr 1
      funext reply
      exact inductionHypothesis reply

@[simp]
theorem answering_ite (condition : Prop) [Decidable condition]
    (first second : Program R' α) :
    answering answer (if condition then first else second) =
      if condition then answering answer first
      else answering answer second := by
  split <;> rfl

end Answering

/-! ## Runs -/

section Run

variable {W : Type} (handle : (request : C) → W → R request × W)

/-- A sequence completes when its parts do, one after the other. -/
theorem run_bind_eq_done (machine : Machine R σ τ ε α)
    (continuation : α → Machine R σ τ ε β) (state : σ) (world : W)
    (result : β) (last : σ) (later : W) :
    ((machine >>= continuation) state).run handle world =
        (.done result last, later) ↔
      ∃ value middle between,
        (machine state).run handle world = (.done value middle, between) ∧
          (continuation value middle).run handle between =
            (.done result last, later) := by
  rw [bind_apply, Program.run_bind]
  obtain ⟨outcome, between⟩ := (machine state).run handle world
  cases outcome with
  | done value middle =>
      constructor
      · intro ran
        exact ⟨value, middle, between, rfl, ran⟩
      · rintro ⟨_, _, _, ⟨⟩, ran⟩
        exact ran
  | trap cause middle =>
      constructor
      · nofun
      · rintro ⟨_, _, _, ⟨⟩, _⟩
  | abort reason =>
      constructor
      · nofun
      · rintro ⟨_, _, _, ⟨⟩, _⟩

end Run

/-! ## Every outcome -/

section All

variable {β : Type}

/-- Every outcome of a sequence. -/
theorem all_bind (machine : Machine R σ τ ε α)
    (continuation : α → Machine R σ τ ε β) (state : σ)
    (property : Outcome σ τ ε β → Prop) :
    ((machine >>= continuation) state).All property ↔
      (machine state).All fun outcome =>
        match outcome with
        | .done value middle => (continuation value middle).All property
        | .trap cause middle => property (.trap cause middle)
        | .abort reason => property (.abort reason) := by
  rw [bind_apply, Program.all_bind]
  constructor
  · intro holds
    refine holds.mono fun outcome rest => ?_
    cases outcome <;> exact rest
  · intro holds
    refine holds.mono fun outcome rest => ?_
    cases outcome <;> exact rest

end All

/-! ## Monitored outcomes -/

section Under

variable {G : Type} {monitor : Monitor R G}

theorem under_bind (machine : Machine R σ τ ε α)
    (continuation : α → Machine R σ τ ε β) (state : σ) (ghost : G)
    (property : G → Outcome σ τ ε β → Prop) :
    ((machine >>= continuation) state).Under monitor ghost property ↔
      (machine state).Under monitor ghost fun last outcome =>
        match outcome with
        | .done value middle =>
            (continuation value middle).Under monitor last property
        | .trap cause middle => property last (.trap cause middle)
        | .abort reason => property last (.abort reason) := by
  rw [bind_apply, Program.under_bind]
  constructor
  · intro holds
    refine holds.mono fun last outcome rest => ?_
    cases outcome <;> exact rest
  · intro holds
    refine holds.mono fun last outcome rest => ?_
    cases outcome <;> exact rest

theorem under_catchTrap (machine : Machine R σ τ ε α)
    (handler : τ → Machine R σ τ ε α) (state : σ) (ghost : G)
    (property : G → Outcome σ τ ε α → Prop) :
    (catchTrap machine handler state).Under monitor ghost property ↔
      (machine state).Under monitor ghost fun last outcome =>
        match outcome with
        | .done value middle => property last (.done value middle)
        | .trap cause middle =>
            (handler cause middle).Under monitor last property
        | .abort reason => property last (.abort reason) := by
  rw [catchTrap, Program.under_bind]
  constructor
  · intro holds
    refine holds.mono fun last outcome rest => ?_
    cases outcome <;> exact rest
  · intro holds
    refine holds.mono fun last outcome rest => ?_
    cases outcome <;> exact rest

end Under

/-! ## Machines without traps -/

/-- The machine completes or aborts. -/
class Untrapped (machine : Machine R σ τ ε α) : Prop where
  untrapped : ∀ state, (machine state).All fun outcome =>
    ∀ cause after, outcome ≠ .trap cause after

namespace Untrapped

instance (value : α) :
    Untrapped (Pure.pure value : Machine R σ τ ε α) where
  untrapped _ := nofun

instance (read : σ → α) :
    Untrapped (Machine.reads read : Machine R σ τ ε α) where
  untrapped _ := nofun

instance (update : σ → σ) :
    Untrapped (Machine.modifies update : Machine R σ τ ε Unit) where
  untrapped _ := nofun

instance (reason : ε) :
    Untrapped (Machine.abort reason : Machine R σ τ ε α) where
  untrapped _ := nofun

instance (question : C) (receive : R question → α) :
    Untrapped (Machine.request question receive : Machine R σ τ ε α) where
  untrapped _ _ := nofun

instance bind (machine : Machine R σ τ ε α)
    (continuation : α → Machine R σ τ ε β)
    [first : Untrapped machine]
    [rest : ∀ value, Untrapped (continuation value)] :
    Untrapped (machine >>= continuation) where
  untrapped state := by
    rw [all_bind]
    refine (first.untrapped state).mono fun outcome trapless => ?_
    cases outcome with
    | done value middle => exact (rest value).untrapped middle
    | trap cause middle => exact absurd rfl (trapless cause middle)
    | abort reason => exact nofun

instance ite (condition : Prop) [Decidable condition]
    (first second : Machine R σ τ ε α)
    [left : Untrapped first] [right : Untrapped second] :
    Untrapped (if condition then first else second) := by
  split
  · exact left
  · exact right

instance (condition : Bool) (reason : ε) :
    Untrapped (Machine.assert condition reason : Machine R σ τ ε Unit) := by
  cases condition with
  | true => exact inferInstanceAs (Untrapped (Pure.pure ()))
  | false => exact inferInstanceAs (Untrapped (Machine.abort reason))

end Untrapped

/-! ## Programs that obey a monitor of their own -/

/-- A stateless program obeys `rules`.  When its answers, from states that
agree with the rules, keep agreeing with them, the answered program ends as
the rules allow. -/
theorem answering_under {C' : Type} {R' : C' → Type} {G H : Type}
    (answer : (question : C') → Machine R σ τ ε (R' question))
    {rules : Monitor R' H} {monitor : Monitor R G}
    (agrees : H → σ → G → Prop) {property : G → Outcome σ τ ε α → Prop}
    (step : ∀ progress state ghost question, agrees progress state ghost →
      rules.requires progress question →
      (answer question state).Under monitor ghost fun last outcome =>
        match outcome with
        | .done reply state' =>
            rules.allows progress question reply ∧
              agrees (rules.next progress question reply) state' last
        | .trap cause state' => property last (.trap cause state')
        | .abort reason => property last (.abort reason))
    {program : Program R' α} {finish : H → α → Prop} {progress : H}
    {state : σ} {ghost : G}
    (obeys : program.Under rules progress finish)
    (start : agrees progress state ghost)
    (ends : ∀ progress state ghost result, finish progress result →
      agrees progress state ghost → property ghost (.done result state)) :
    (answering answer program state).Under monitor ghost property := by
  induction program generalizing progress state ghost with
  | ret result => exact ends progress state ghost result obeys start
  | call question next inductionHypothesis =>
      rw [answering, bind_apply, Program.under_bind]
      refine (step progress state ghost question start obeys.1).mono
        fun last outcome holds => ?_
      cases outcome with
      | done reply state' =>
          exact inductionHypothesis reply (obeys.2 reply holds.1) holds.2
      | trap cause state' => exact holds
      | abort reason => exact holds

end Machine

end RiscvVp.Interaction
