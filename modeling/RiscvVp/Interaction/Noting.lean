import RiscvVp.Interaction.Machine

/-!
# Surroundings that keep notes

Any surroundings can keep notes of the conversation without taking part in it.
What happens is the same, and a program that only makes requests of which no
note is taken leaves the notes alone.
-/

namespace RiscvVp.Interaction

variable {C : Type} {R : C → Type} {G H α : Type}

namespace Surroundings

/-- The surroundings, with notes. -/
def noting (surroundings : Surroundings R G)
    (note : H → (request : C) → R request → H) : Surroundings R (G × H) where
  allows state := surroundings.allows state.1
  next state request reply :=
    (surroundings.next state.1 request reply, note state.2 request reply)

end Surroundings

namespace Program

variable {surroundings : Surroundings R G}
  {note : H → (request : C) → R request → H}

/-- Taking notes changes nothing. -/
theorem under_noting_iff (state : G) (notes : H) (program : Program R α)
    (property : G → α → Prop) :
    Under (surroundings.noting note).monitor (state, notes) program
        (fun last => property last.1) ↔
      Under surroundings.monitor state program property := by
  induction program generalizing state notes with
  | ret result => exact Iff.rfl
  | call request next inductionHypothesis =>
      rw [under_call, under_call]
      refine and_congr_right fun _ => forall_congr' fun reply => ?_
      exact imp_congr_right fun _ => inductionHypothesis reply _ _

/-- What is reached with notes is reached without. -/
theorem reachesIn_of_noting (state : G) (notes : H) (program : Program R α) :
    Under (surroundings.noting note).monitor (state, notes) program
      fun last result => ReachesIn surroundings state program last.1 result :=
  (under_noting_iff state notes program fun last result =>
    ReachesIn surroundings state program last result).2 <|
      (under_iff_reachesIn _ _ _).2 fun _ _ reached => reached

/-- Requests that are not noted leave the notes alone. -/
theorem Under.noting {permitted : C → Prop}
    (unnoted : ∀ request, permitted request → ∀ notes reply,
      note notes request reply = notes)
    {program : Program R α} {property : α → Prop}
    (asks : program.Under (restricting permitted) () fun _ => property)
    (state : G) (notes : H) :
    Under (surroundings.noting note).monitor (state, notes) program
      fun last result => last.2 = notes ∧ property result := by
  induction program generalizing state with
  | ret result => exact ⟨rfl, asks⟩
  | call request next inductionHypothesis =>
      refine ⟨trivial, fun reply _ => ?_⟩
      change Under _ (_, note notes request reply) _ _
      rw [unnoted request asks.1 notes reply]
      exact inductionHypothesis reply (asks.2 reply trivial) _

/-- A handler that keeps notes. -/
def noted (handle : (request : C) → G → R request × G)
    (note : H → (request : C) → R request → H) (request : C) (state : G × H) :
    R request × (G × H) :=
  ((handle request state.1).1, (handle request state.1).2,
    note state.2 request (handle request state.1).1)

/-- A handler reaches the leaf that it runs to, and its notes. -/
theorem reachesIn_noting_of {handle : (request : C) → G → R request × G}
    {program : Program R α} {state last : G × H} {result : α}
    (ran : program.run (noted handle note) state = (result, last)) :
    ReachesIn ((Surroundings.of handle).noting note) state program last result := by
  induction program generalizing state with
  | ret value =>
      rw [run_ret] at ran
      cases ran
      exact .ret _ _
  | call request next inductionHypothesis =>
      rw [run_call] at ran
      exact .call (handle request state.1).1 rfl (inductionHypothesis _ ran)

end Program

end RiscvVp.Interaction
