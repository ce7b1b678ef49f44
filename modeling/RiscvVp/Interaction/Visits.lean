import RiscvVp.Interaction.Program

/-!
# The states of a monitored conversation

A monitor passes through one state after another while a program runs.  A
program may be cut short at any of its requests, so that what matters is not
only the state at its end but every state that it visits.
-/

namespace RiscvVp.Interaction

variable {C : Type} {R : C → Type} {G H α : Type}

namespace Program

/-- The monitor is in this state at some point of the program. -/
inductive Visits (monitor : Monitor R G) : G → Program R α → G → Prop
  | here (state : G) (program : Program R α) : Visits monitor state program state
  | call {state last : G} {request : C} {next : R request → Program R α}
      (reply : R request) (allowed : monitor.allows state request reply)
      (tail : Visits monitor (monitor.next state request reply) (next reply)
        last) :
      Visits monitor state (.call request next) last

/-! ## A monitor that guides another one -/

section Guided

variable {guide : Monitor R G} {monitor : Monitor R H}

/-- What the guide requires gives what the monitor requires, and the states
stay related. -/
def Guides (guide : Monitor R G) (monitor : Monitor R H)
    (related : G → H → Prop) : Prop :=
  ∀ state follower request, related state follower →
    guide.requires state request →
      monitor.requires follower request ∧
        ∀ reply, monitor.allows follower request reply →
          guide.allows state request reply ∧
            related (guide.next state request reply)
              (monitor.next follower request reply)

variable {related : G → H → Prop} {state : G} {follower last : H}
  {program : Program R α} {property : G → α → Prop}

theorem Under.guided (guides : Guides guide monitor related)
    (start : related state follower)
    (holds : program.Under guide state property) :
    program.Under monitor follower fun last _ =>
      ∃ guided, related guided last := by
  induction program generalizing state follower with
  | ret result => exact ⟨state, start⟩
  | call request next inductionHypothesis =>
      obtain ⟨requires, moves⟩ := guides state follower request start holds.1
      refine ⟨requires, fun reply allowed => ?_⟩
      obtain ⟨guided, later⟩ := moves reply allowed
      exact inductionHypothesis reply later (holds.2 reply guided)

theorem Visits.guided (guides : Guides guide monitor related)
    (start : related state follower)
    (holds : program.Under guide state property)
    (visits : program.Visits monitor follower last) :
    ∃ guided, related guided last := by
  induction visits generalizing state with
  | here follower program => exact ⟨state, start⟩
  | call reply allowed tail inductionHypothesis =>
      obtain ⟨guided, later⟩ := (guides _ _ _ start holds.1).2 reply allowed
      exact inductionHypothesis later (holds.2 reply guided)

end Guided

end Program

end RiscvVp.Interaction
