import Mathlib.Logic.Relation

/-!
# Interactive programs

A program that computes locally and asks its surroundings for everything else
is a well-founded tree: a leaf carries a result, an inner node carries a
request and one subtree for every reply.  Nothing here fixes what the
surroundings are.  They may be a deterministic handler (`Program.run`), or any
surroundings at all (`Program.All`), or surroundings watched by a monitor that
restricts the replies and charges obligations to the requests
(`Program.Under`).  `Surroundings` are monitors that charge nothing; a handler
is one of them.

The readings are related: a property of every leaf holds in every
surroundings, and a monitored property holds of every leaf that the replies
allowed by the monitor can reach.
-/

namespace RiscvVp.Interaction

/-- A tree of requests `C`, with replies `R`, ending in results `α`. -/
inductive Program {C : Type} (R : C → Type) (α : Type) : Type
  | ret (result : α)
  | call (request : C) (next : R request → Program R α)

namespace Program

variable {C : Type} {R : C → Type} {α β γ : Type}

def bind : Program R α → (α → Program R β) → Program R β
  | .ret result, continuation => continuation result
  | .call request next, continuation =>
      .call request fun reply => (next reply).bind continuation

instance : Monad (Program R) where
  pure := .ret
  bind := bind

@[simp]
theorem pure_eq (result : α) :
    (pure result : Program R α) = .ret result :=
  rfl

@[simp]
theorem ret_bind (result : α) (continuation : α → Program R β) :
    (Program.ret result >>= continuation) = continuation result :=
  rfl

@[simp]
theorem call_bind (request : C) (next : R request → Program R α)
    (continuation : α → Program R β) :
    (Program.call request next >>= continuation) =
      .call request fun reply => next reply >>= continuation :=
  rfl

@[simp]
theorem bind_ret (program : Program R α) :
    (program >>= Program.ret) = program := by
  induction program with
  | ret result => rfl
  | call request next inductionHypothesis =>
      rw [call_bind]
      congr 1
      funext reply
      exact inductionHypothesis reply

theorem bind_assoc (program : Program R α)
    (first : α → Program R β) (second : β → Program R γ) :
    (program >>= first >>= second) =
      (program >>= fun result => first result >>= second) := by
  induction program with
  | ret result => rfl
  | call request next inductionHypothesis =>
      rw [call_bind, call_bind, call_bind]
      congr 1
      funext reply
      exact inductionHypothesis reply

/-- A single request, whose reply or a part of it is the result. -/
def ask (request : C) (receive : R request → α := by exact id) :
    Program R α :=
  .call request fun reply => .ret (receive reply)

/-! ## Deterministic surroundings -/

section Run

variable {W : Type}

/-- Run against a handler that answers every request from a state `W`. -/
def run (handle : (request : C) → W → R request × W) :
    Program R α → W → α × W
  | .ret result, world => (result, world)
  | .call request next, world =>
      let answered := handle request world
      (next answered.1).run handle answered.2

variable (handle : (request : C) → W → R request × W)

@[simp]
theorem run_ret (result : α) (world : W) :
    (Program.ret result : Program R α).run handle world = (result, world) :=
  rfl

@[simp]
theorem run_call (request : C) (next : R request → Program R α)
    (world : W) :
    (Program.call request next).run handle world =
      (next (handle request world).1).run handle
        (handle request world).2 :=
  rfl

theorem run_bind (program : Program R α)
    (continuation : α → Program R β) (world : W) :
    (program >>= continuation).run handle world =
      (continuation (program.run handle world).1).run handle
        (program.run handle world).2 := by
  induction program generalizing world with
  | ret result => rfl
  | call request next inductionHypothesis =>
      rw [call_bind, run_call, run_call]
      exact inductionHypothesis _ _

end Run

/-! ## Arbitrary surroundings -/

/-- The property holds of every leaf. -/
def All : Program R α → (α → Prop) → Prop
  | .ret result, property => property result
  | .call _ next, property => ∀ reply, (next reply).All property

/-- The leaf is reached by some sequence of replies. -/
inductive Reaches : Program R α → α → Prop
  | ret (result : α) : Reaches (.ret result) result
  | call {request : C} {next : R request → Program R α} {result : α}
      (reply : R request) (tail : Reaches (next reply) result) :
      Reaches (.call request next) result

@[simp]
theorem all_ret (result : α) (property : α → Prop) :
    (Program.ret result : Program R α).All property ↔ property result :=
  Iff.rfl

@[simp]
theorem all_call (request : C) (next : R request → Program R α)
    (property : α → Prop) :
    (Program.call request next).All property ↔
      ∀ reply, (next reply).All property :=
  Iff.rfl

theorem all_iff_reaches (program : Program R α) (property : α → Prop) :
    program.All property ↔
      ∀ result, program.Reaches result → property result := by
  induction program with
  | ret result =>
      constructor
      · intro holds reached path
        cases path
        exact holds
      · intro every
        exact every result (.ret result)
  | call request next inductionHypothesis =>
      constructor
      · intro holds result path
        cases path with
        | call reply tail =>
            exact (inductionHypothesis reply).1 (holds reply) result tail
      · intro every reply
        exact (inductionHypothesis reply).2 fun result tail =>
          every result (.call reply tail)

theorem All.mono {program : Program R α} {property weaker : α → Prop}
    (holds : program.All property)
    (implies : ∀ result, property result → weaker result) :
    program.All weaker :=
  (all_iff_reaches program weaker).2 fun result path =>
    implies result ((all_iff_reaches program property).1 holds result path)

theorem all_bind (program : Program R α)
    (continuation : α → Program R β) (property : β → Prop) :
    (program >>= continuation).All property ↔
      program.All fun result => (continuation result).All property := by
  induction program with
  | ret result => exact Iff.rfl
  | call request next inductionHypothesis =>
      rw [call_bind, all_call, all_call]
      exact forall_congr' inductionHypothesis

theorem All.run {W : Type} {program : Program R α}
    {property : α → Prop} (holds : program.All property)
    (handle : (request : C) → W → R request × W) (world : W) :
    property (program.run handle world).1 := by
  induction program generalizing world with
  | ret result => exact holds
  | call request next inductionHypothesis =>
      rw [run_call]
      exact inductionHypothesis _ (holds _) _

/-! ## Monitored surroundings -/

end Program

/-- A monitor follows a conversation in its own state `G`.  `requires` is what
the program owes when it makes a request, `allows` is what it may rely on in
the reply, and `next` is how the exchange moves the monitor. -/
structure Monitor {C : Type} (R : C → Type) (G : Type) where
  requires : G → C → Prop
  allows : G → (request : C) → R request → Prop
  next : G → (request : C) → R request → G

namespace Program

variable {C : Type} {R : C → Type} {α β : Type} {G : Type}

/-- Every request meets its obligation, and the property holds of every leaf
that allowed replies reach, together with the monitor state there. -/
def Under (monitor : Monitor R G) :
    G → Program R α → (G → α → Prop) → Prop
  | state, .ret result, property => property state result
  | state, .call request next, property =>
      monitor.requires state request ∧
        ∀ reply, monitor.allows state request reply →
          Under monitor (monitor.next state request reply)
            (next reply) property

section Under

variable (monitor : Monitor R G)

@[simp]
theorem under_ret (state : G) (result : α) (property : G → α → Prop) :
    Under monitor state (.ret result : Program R α) property ↔
      property state result :=
  Iff.rfl

theorem under_call (state : G) (request : C)
    (next : R request → Program R α) (property : G → α → Prop) :
    Under monitor state (.call request next) property ↔
      monitor.requires state request ∧
        ∀ reply, monitor.allows state request reply →
          Under monitor (monitor.next state request reply)
            (next reply) property :=
  Iff.rfl

variable {monitor}

theorem Under.mono {state : G} {program : Program R α}
    {property weaker : G → α → Prop}
    (holds : Under monitor state program property)
    (implies : ∀ last result, property last result → weaker last result) :
    Under monitor state program weaker := by
  induction program generalizing state with
  | ret result => exact implies _ _ holds
  | call request next inductionHypothesis =>
      refine ⟨holds.1, fun reply allowed => ?_⟩
      exact inductionHypothesis reply (holds.2 reply allowed)

theorem under_bind (state : G) (program : Program R α)
    (continuation : α → Program R β) (property : G → β → Prop) :
    Under monitor state (program >>= continuation) property ↔
      Under monitor state program fun last result =>
        Under monitor last (continuation result) property := by
  induction program generalizing state with
  | ret result => exact Iff.rfl
  | call request next inductionHypothesis =>
      rw [call_bind, under_call, under_call]
      refine and_congr_right fun _ => forall_congr' fun reply => ?_
      exact imp_congr_right fun _ => inductionHypothesis reply _

/-- Two properties under one monitor. -/
theorem Under.and {state : G} {program : Program R α}
    {first second : G → α → Prop}
    (left : Under monitor state program first)
    (right : Under monitor state program second) :
    Under monitor state program fun last result =>
      first last result ∧ second last result := by
  induction program generalizing state with
  | ret result => exact ⟨left, right⟩
  | call request next inductionHypothesis =>
      refine ⟨left.1, fun reply allowed => ?_⟩
      exact inductionHypothesis reply (left.2 reply allowed)
        (right.2 reply allowed)

/-- Two properties that agree wherever a third holds. -/
theorem Under.congr {state : G} {program : Program R α}
    {known first second : G → α → Prop}
    (holds : Under monitor state program known)
    (agree : ∀ last result, known last result →
      (first last result ↔ second last result)) :
    Under monitor state program first ↔ Under monitor state program second := by
  constructor
  · intro left
    exact (holds.and left).mono fun last result both =>
      (agree last result both.1).1 both.2
  · intro right
    exact (holds.and right).mono fun last result both =>
      (agree last result both.1).2 both.2

/-- What holds of every leaf holds under any monitor whose obligations are
met. -/
theorem Under.and_all {state : G} {program : Program R α}
    {first : G → α → Prop} {second : α → Prop}
    (left : Under monitor state program first)
    (right : program.All second) :
    Under monitor state program fun last result =>
      first last result ∧ second result := by
  induction program generalizing state with
  | ret result => exact ⟨left, right⟩
  | call request next inductionHypothesis =>
      refine ⟨left.1, fun reply allowed => ?_⟩
      exact inductionHypothesis reply (left.2 reply allowed) (right reply)

end Under

/-! ## Requests -/

/-- The monitor that permits some requests and takes no note of anything. -/
def restricting (permitted : C → Prop) : Monitor R Unit where
  requires _ := permitted
  allows _ _ _ := True
  next _ _ _ := ()

/-- The program makes no request but permitted ones, whatever the replies. -/
def Asks (permitted : C → Prop) (program : Program R α) : Prop :=
  program.Under (restricting permitted) () fun _ _ => True

end Program

/-! ## Surroundings -/

/-- Surroundings that charge nothing: what they may reply, and how an exchange
moves them. -/
structure Surroundings {C : Type} (R : C → Type) (G : Type) where
  allows : G → (request : C) → R request → Prop
  next : G → (request : C) → R request → G

namespace Surroundings

variable {C : Type} {R : C → Type} {G : Type}

/-- The monitor of these surroundings. -/
def monitor (surroundings : Surroundings R G) : Monitor R G where
  requires _ _ := True
  allows := surroundings.allows
  next := surroundings.next

/-- Surroundings that may reply anything. -/
def any : Surroundings R Unit where
  allows _ _ _ := True
  next _ _ _ := ()

/-- The surroundings that a handler makes. -/
def of (handle : (request : C) → G → R request × G) : Surroundings R G where
  allows world request reply := reply = (handle request world).1
  next world request _ := (handle request world).2

end Surroundings

namespace Program

variable {C : Type} {R : C → Type} {α β : Type}

theorem under_any (program : Program R α) (property : Unit → α → Prop) :
    Under Surroundings.any.monitor () program property ↔
      program.All (property ()) := by
  induction program with
  | ret result => exact Iff.rfl
  | call request next inductionHypothesis =>
      rw [under_call, all_call]
      refine ⟨fun holds reply => ?_, fun holds => ⟨trivial, fun reply _ => ?_⟩⟩
      · exact (inductionHypothesis reply).1 (holds.2 reply trivial)
      · exact (inductionHypothesis reply).2 (holds reply)

section Surrounded

variable {G : Type} (surroundings : Surroundings R G)

/-- What holds of every leaf holds in every surroundings. -/
theorem All.under {program : Program R α} {property : α → Prop}
    (holds : program.All property) (state : G) :
    Under surroundings.monitor state program fun _ => property := by
  induction program generalizing state with
  | ret result => exact holds
  | call request next inductionHypothesis =>
      exact ⟨trivial, fun reply _ => inductionHypothesis reply (holds reply) _⟩

/-- The leaf is reached in these surroundings, which have moved meanwhile. -/
inductive ReachesIn : G → Program R α → G → α → Prop
  | ret (state : G) (result : α) : ReachesIn state (.ret result) state result
  | call {state last : G} {request : C} {next : R request → Program R α}
      {result : α} (reply : R request)
      (allowed : surroundings.allows state request reply)
      (tail : ReachesIn (surroundings.next state request reply) (next reply)
        last result) :
      ReachesIn state (.call request next) last result

variable {surroundings}

theorem ReachesIn.reaches {state last : G} {program : Program R α}
    {result : α} (path : ReachesIn surroundings state program last result) :
    program.Reaches result := by
  induction path with
  | ret state result => exact .ret result
  | call reply _ _ inductionHypothesis => exact .call reply inductionHypothesis

theorem under_iff_reachesIn (state : G) (program : Program R α)
    (property : G → α → Prop) :
    Under surroundings.monitor state program property ↔
      ∀ last result, ReachesIn surroundings state program last result →
        property last result := by
  induction program generalizing state with
  | ret result =>
      constructor
      · intro holds last value path
        cases path
        exact holds
      · intro every
        exact every state result (.ret state result)
  | call request next inductionHypothesis =>
      constructor
      · intro holds last result path
        cases path with
        | call reply allowed tail =>
            exact (inductionHypothesis reply _).1 (holds.2 reply allowed) last
              result tail
      · intro every
        refine ⟨trivial, fun reply allowed => ?_⟩
        exact (inductionHypothesis reply _).2 fun last result tail =>
          every last result (.call reply allowed tail)

theorem reachesIn_ret {state last : G} {value result : α} :
    ReachesIn surroundings state (.ret value) last result ↔
      last = state ∧ result = value := by
  constructor
  · intro path
    cases path
    exact ⟨rfl, rfl⟩
  · rintro ⟨rfl, rfl⟩
    exact .ret _ _

theorem reachesIn_bind (state last : G) (program : Program R α)
    (continuation : α → Program R β) (result : β) :
    ReachesIn surroundings state (program >>= continuation) last result ↔
      ∃ between middle,
        ReachesIn surroundings state program between middle ∧
          ReachesIn surroundings between (continuation middle) last result := by
  induction program generalizing state with
  | ret value =>
      constructor
      · intro path
        exact ⟨state, value, .ret state value, path⟩
      · rintro ⟨between, middle, first, second⟩
        cases first
        exact second
  | call request next inductionHypothesis =>
      constructor
      · intro path
        cases path with
        | call reply allowed tail =>
            obtain ⟨between, middle, first, second⟩ :=
              (inductionHypothesis reply _).1 tail
            exact ⟨between, middle, .call reply allowed first, second⟩
      · rintro ⟨between, middle, first, second⟩
        cases first with
        | call reply allowed tail =>
            exact .call reply allowed <|
              (inductionHypothesis reply _).2 ⟨between, middle, tail, second⟩

/-- A handler reaches the one leaf that it runs to. -/
theorem reachesIn_of (handle : (request : C) → G → R request × G)
    (world last : G) (program : Program R α) (result : α) :
    ReachesIn (.of handle) world program last result ↔
      program.run handle world = (result, last) := by
  induction program generalizing world with
  | ret value =>
      rw [reachesIn_ret, run_ret, Prod.mk.injEq]
      constructor
      · rintro ⟨rfl, rfl⟩
        exact ⟨rfl, rfl⟩
      · rintro ⟨rfl, rfl⟩
        exact ⟨rfl, rfl⟩
  | call request next inductionHypothesis =>
      rw [run_call]
      constructor
      · intro path
        cases path with
        | call reply allowed tail =>
            cases allowed
            exact (inductionHypothesis _ _).1 tail
      · intro same
        exact .call _ rfl ((inductionHypothesis _ _).2 same)

end Surrounded

end Program

end RiscvVp.Interaction
