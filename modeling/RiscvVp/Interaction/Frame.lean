import RiscvVp.Interaction.Machine

/-!
# Frames

A frame says how far a machine may move its state, whatever its surroundings
reply: a reflexive and transitive relation that holds between the state before
and the state after, whether the machine completes or traps, and the list of
the aborts it may end with.  A frame has a precondition that its relation
preserves, so that an abort can be excluded for the states that meet it.

`Framed frame machine` follows the structure of the machine.
-/

namespace RiscvVp.Interaction

structure Frame (σ ε : Type) where
  pre : σ → Prop
  related : σ → σ → Prop
  refl : ∀ state, related state state
  trans : ∀ {first second third},
    related first second → related second third → related first third
  stable : ∀ {before after}, pre before → related before after → pre after
  aborts : ε → Prop

namespace Frame

variable {σ τ ε α : Type}

/-- The frame that says nothing but which aborts may happen. -/
def aborting (aborts : ε → Prop) : Frame σ ε where
  pre _ := True
  related _ _ := True
  refl _ := trivial
  trans _ _ := trivial
  stable _ _ := trivial
  aborts := aborts

/-- What the frame says about an outcome. -/
def post (frame : Frame σ ε) (before : σ) (outcome : Outcome σ τ ε α) :
    Prop :=
  (∀ after, outcome.state? = some after → frame.related before after) ∧
    ∀ reason, outcome = .abort reason → frame.aborts reason

variable (frame : Frame σ ε) (before : σ)

@[simp]
theorem post_done (value : α) (after : σ) :
    frame.post before (.done value after : Outcome σ τ ε α) ↔
      frame.related before after := by
  simp [post]

@[simp]
theorem post_trap (cause : τ) (after : σ) :
    frame.post before (.trap cause after : Outcome σ τ ε α) ↔
      frame.related before after := by
  simp [post]

@[simp]
theorem post_abort (reason : ε) :
    frame.post before (.abort reason : Outcome σ τ ε α) ↔
      frame.aborts reason := by
  simp [post]

variable {frame before}

/-- An outcome within the frame of a later state is within the frame of an
earlier one. -/
theorem post_trans {middle : σ} (first : frame.related before middle)
    {outcome : Outcome σ τ ε α} (second : frame.post middle outcome) :
    frame.post before outcome :=
  ⟨fun after reached => frame.trans first (second.1 after reached), second.2⟩

end Frame

namespace Machine

variable {C : Type} {R : C → Type} {σ τ ε α β : Type}

/-- The machine stays within the frame. -/
class Framed (frame : Frame σ ε) (machine : Machine R σ τ ε α) :
    Prop where
  framed : ∀ state, frame.pre state →
    (machine state).All (frame.post state)

namespace Framed

variable {frame : Frame σ ε}

instance (value : α) :
    Framed frame (Pure.pure value : Machine R σ τ ε α) where
  framed state _ := (frame.post_done state value state).2 (frame.refl state)

instance (read : σ → α) :
    Framed frame (Machine.reads read : Machine R σ τ ε α) where
  framed state _ :=
    (frame.post_done state (read state) state).2 (frame.refl state)

instance (cause : τ) :
    Framed frame (Machine.raise cause : Machine R σ τ ε α) where
  framed state _ := (frame.post_trap state cause state).2 (frame.refl state)

instance (question : C) (receive : R question → α) :
    Framed frame
      (Machine.request question receive : Machine R σ τ ε α) where
  framed state _ reply :=
    (frame.post_done state (receive reply) state).2 (frame.refl state)

theorem modifies {update : σ → σ}
    (moved : ∀ state, frame.pre state →
      frame.related state (update state)) :
    Framed frame (Machine.modifies update : Machine R σ τ ε Unit) where
  framed state met :=
    (frame.post_done state () (update state)).2 (moved state met)

theorem abort {reason : ε} (listed : frame.aborts reason) :
    Framed frame (Machine.abort reason : Machine R σ τ ε α) where
  framed state _ := (frame.post_abort state reason).2 listed

theorem assert {condition : Bool} {reason : ε}
    (listed : frame.aborts reason) :
    Framed frame
      (Machine.assert condition reason : Machine R σ τ ε Unit) := by
  cases condition with
  | true => exact inferInstanceAs (Framed frame (Pure.pure ()))
  | false => exact Framed.abort listed

/-- Sequencing, when the rest is known to be framed only from the states that
the first statement can reach. -/
theorem bind_of (machine : Machine R σ τ ε α)
    (continuation : α → Machine R σ τ ε β) {state : σ}
    (first : (machine state).All (frame.post state))
    (rest : ∀ value middle,
      (machine state).Reaches (.done value middle) →
      frame.related state middle →
      (continuation value middle).All (frame.post middle)) :
    ((machine >>= continuation) state).All (frame.post state) := by
  rw [bind_apply, Program.all_bind, Program.all_iff_reaches]
  intro outcome reached
  have within := (Program.all_iff_reaches _ _).1 first outcome reached
  cases outcome with
  | done value middle =>
      have related := (frame.post_done state value middle).1 within
      exact (rest value middle reached related).mono fun _ later =>
        Frame.post_trans related later
  | trap cause middle =>
      exact (frame.post_trap state cause middle).2 <|
        (frame.post_trap state cause middle).1 within
  | abort reason =>
      exact (frame.post_abort state reason).2 <|
        (frame.post_abort state reason).1 within

instance bind (machine : Machine R σ τ ε α)
    (continuation : α → Machine R σ τ ε β)
    [first : Framed frame machine]
    [rest : ∀ value, Framed frame (continuation value)] :
    Framed frame (machine >>= continuation) where
  framed state met :=
    bind_of machine continuation (first.framed state met)
      fun value middle _ related =>
        (rest value).framed middle (frame.stable met related)

instance ite (condition : Prop) [Decidable condition]
    (first second : Machine R σ τ ε α)
    [left : Framed frame first] [right : Framed frame second] :
    Framed frame (if condition then first else second) := by
  split
  · exact left
  · exact right

instance catchTrap (machine : Machine R σ τ ε α)
    (handler : τ → Machine R σ τ ε α)
    [first : Framed frame machine]
    [rest : ∀ cause, Framed frame (handler cause)] :
    Framed frame (Machine.catchTrap machine handler) where
  framed state met := by
    rw [Machine.catchTrap, Program.all_bind]
    refine (first.framed state met).mono fun outcome within => ?_
    cases outcome with
    | done value middle => exact within
    | trap cause middle =>
        have related := (frame.post_trap state cause middle).1 within
        have later := (rest cause).framed middle (frame.stable met related)
        exact later.mono fun _ => Frame.post_trans related
    | abort reason => exact within

instance answering {C' : Type} {R' : C' → Type}
    (answer : (question : C') → Machine R σ τ ε (R' question))
    [each : ∀ question, Framed frame (answer question)]
    (program : Program R' α) :
    Framed frame (Machine.answering answer program) := by
  induction program with
  | ret result => exact inferInstanceAs (Framed frame (Pure.pure result))
  | call question next inductionHypothesis =>
      exact inferInstanceAs <|
        Framed frame <|
          answer question >>= fun reply =>
            Machine.answering answer (next reply)

/-- A program that makes only permitted requests, when the answers to these
are framed. -/
theorem answering_of_asks {C' : Type} {R' : C' → Type}
    (answer : (question : C') → Machine R σ τ ε (R' question))
    {permitted : C' → Prop}
    (each : ∀ question, permitted question → Framed frame (answer question))
    {program : Program R' α} (asks : program.Asks permitted) :
    Framed frame (Machine.answering answer program) := by
  induction program with
  | ret result => exact inferInstanceAs (Framed frame (Pure.pure result))
  | call question next inductionHypothesis =>
      have first := each question asks.1
      have rest := fun reply => inductionHypothesis reply (asks.2 reply trivial)
      exact inferInstanceAs <|
        Framed frame <|
          answer question >>= fun reply =>
            Machine.answering answer (next reply)

/-- The results of the answered program are results of the program. -/
theorem answering_all {C' : Type} {R' : C' → Type}
    (answer : (question : C') → Machine R σ τ ε (R' question))
    [each : ∀ question, Framed frame (answer question)]
    {program : Program R' α} {property : α → Prop}
    (holds : program.All property) (state : σ) (met : frame.pre state) :
    (Machine.answering answer program state).All fun outcome =>
      frame.post state outcome ∧
        ∀ result last, outcome = .done result last → property result := by
  induction program generalizing state with
  | ret result =>
      refine ⟨(frame.post_done state result state).2 (frame.refl state), ?_⟩
      intro result' last same
      cases same
      exact holds
  | call question next inductionHypothesis =>
      rw [Machine.answering, bind_apply, Program.all_bind]
      refine ((each question).framed state met).mono fun outcome within => ?_
      cases outcome with
      | done reply middle =>
          have related := (frame.post_done state reply middle).1 within
          refine (inductionHypothesis reply (holds reply) middle
            (frame.stable met related)).mono fun last later => ?_
          exact ⟨Frame.post_trans related later.1, later.2⟩
      | trap cause middle =>
          refine ⟨by simpa using within, ?_⟩
          intro result last contradiction
          cases contradiction
      | abort reason =>
          refine ⟨by simpa using within, ?_⟩
          intro result last contradiction
          cases contradiction

/-- A machine on a part of the state, whose own aborts must be listed. -/
theorem embed {C' : Type} {R' : C' → Type} {σ' : Type}
    (answer : (question : C') → Machine R σ τ ε (R' question))
    [each : ∀ question, Framed frame (answer question)]
    (read : σ → σ') (write : σ' → σ → σ)
    (moved : ∀ part state, frame.pre state →
      frame.related state (write part state))
    {machine : Machine R' σ' τ ε α} {state : σ} (met : frame.pre state)
    (listed : (machine (read state)).All fun outcome =>
      ∀ reason, outcome = .abort reason → frame.aborts reason) :
    (Machine.embed answer read write machine state).All
      (frame.post state) := by
  rw [Machine.embed, bind_apply, reads_apply, Program.ret_bind, andThen_done,
    bind_apply, Program.all_bind]
  refine (answering_all answer listed state met).mono fun outcome holds => ?_
  cases outcome with
  | done result middle =>
      have related := (frame.post_done state result middle).1 holds.1
      have written := fun part =>
        frame.trans related (moved part middle (frame.stable met related))
      cases result with
      | done value part =>
          exact (frame.post_done state value _).2 (written part)
      | trap cause part =>
          exact (frame.post_trap state cause _).2 (written part)
      | abort reason =>
          exact (frame.post_abort state reason).2 <|
            holds.2 _ middle rfl reason rfl
  | trap cause middle => simpa using holds.1
  | abort reason => simpa using holds.1

/-- An embedded machine that completes has completed on its part. -/
theorem embed_results {C' : Type} {R' : C' → Type} {σ' : Type}
    (answer : (question : C') → Machine R σ τ ε (R' question))
    (read : σ → σ') (write : σ' → σ → σ) {machine : Machine R' σ' τ ε α}
    {state : σ} {property : α → σ' → Prop}
    (holds : (machine (read state)).All fun outcome =>
      ∀ value part, outcome = .done value part → property value part) :
    (Machine.embed answer read write machine state).All fun outcome =>
      ∀ value last, outcome = .done value last →
        ∃ part before, last = write part before ∧ property value part := by
  let anything : Frame σ ε := Frame.aborting fun _ => True
  have each (question : C') : Framed anything (answer question) :=
    ⟨fun _ _ => (Program.all_iff_reaches _ _).mpr fun _ _ =>
      ⟨fun _ _ => trivial, fun _ _ => trivial⟩⟩
  have met : anything.pre state := trivial
  rw [Machine.embed, bind_apply, reads_apply, Program.ret_bind, andThen_done,
    all_bind]
  refine (answering_all answer holds state met).mono fun outcome results => ?_
  cases outcome with
  | done result middle =>
      cases result with
      | done value part =>
          rintro _ _ ⟨⟩
          exact ⟨part, middle, rfl, results.2 _ middle rfl value part rfl⟩
      | trap cause part => exact nofun
      | abort reason => exact nofun
  | trap cause middle => exact nofun
  | abort reason => exact nofun

end Framed

end Machine

end RiscvVp.Interaction
