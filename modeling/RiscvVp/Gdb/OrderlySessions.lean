import RiscvVp.Gdb.RunnerSteps
import RiscvVp.Gdb.ServerSteps

/-!
# Orderly sessions

In a session whose steps are all orderly the all-stop protocol holds in every
state.  Each of the three conditions is needed.
-/

namespace RiscvVp

namespace Gdb

open Cooperative

namespace Session

variable {ι : Type} {session later : Session ι} {hart : ι}

variable [DecidableEq ι]

theorem Invariant.deliver (invariant : session.Invariant)
    (listening : session.server = .listening) (actions : List Vcont) :
    Invariant { session with
      kernel := session.kernel.notify [.packet]
      server := .acting ⟨actions, [], none⟩ } := by
  have serves := invariant.serves
  rw [listening] at serves
  obtain ⟨confined, untouched, waiting⟩ := serves
  have same : session.SameHarts { session with
      kernel := session.kernel.notify [.packet]
      server := .acting ⟨actions, [], none⟩ } := by
    refine ⟨rfl, rfl, fun hart => ?_⟩
    apply Phase.notified_eq_self
    intro awaited waits event notified
    rw [((invariant.coherent hart).waits waits).1]
    rw [List.mem_singleton] at notified ⊢
    subst notified
    exact nofun
  refine ⟨invariant.consistent.notify _, same.coherent invariant.coherent,
    same.confined confined, untouched, ?_⟩
  rw [Kernel.phase_notify, waiting]
  exact Phase.notified_waiting (List.mem_singleton_self _)
    (List.mem_singleton_self _)

theorem Invariant.elapse (invariant : session.Invariant)
    {kernel : Kernel (Process ι) (Event ι)}
    (elapsed : session.kernel.elapse (.runner hart) = some kernel) :
    Invariant { session with kernel := kernel } := by
  have consistent := invariant.consistent.elapse elapsed
  obtain ⟨delayed, rfl⟩ := Kernel.elapse_eq_some elapsed
  have coherent := invariant.coherent hart
  have running : session.point hart ≠ .parked ∧
      session.point hart ≠ .exited := by
    constructor
    · intro place
      rw [Coherent, place, delayed] at coherent
      simp at coherent
    · intro place
      rw [Coherent, place, delayed] at coherent
      cases coherent.1
  have unsettled : ¬ session.Settled hart := by
    rintro (waits | exited)
    · exact running.1 waits.1
    · exact running.2 exited
  have keeps : session.Keeps hart { session with
      kernel := { session.kernel with
        phase := Function.update session.kernel.phase (.runner hart)
          .ready } } :=
    ⟨rfl, fun _ _ => rfl, fun _ _ => rfl,
      fun _ different => Function.update_of_ne different ..⟩
  have stopping : session.point hart = .stopping →
      session.status hart ≠ .runnable := by
    intro place
    rw [Coherent, place] at coherent
    exact coherent.2
  have moves := keeps.moves consistent (.inl (Function.update_self ..)) running
    stopping id
  exact moves.invariant unsettled invariant

theorem Invariant.serve {harts : List ι} (invariant : session.Invariant)
    (controls : session.kernel.current = some .server)
    (orderly : session.Orderly .serve)
    (served : session.serve harts = some later) : later.Invariant := by
  have ready := invariant.consistent _ controls
  unfold Session.serve at served
  cases place : session.server with
  | listening => simp [place] at served
  | failed => simp [place] at served
  | acting loop =>
      simp only [place, Option.some.injEq] at served
      subst served
      exact invariant.act place harts
  | invoking loop hartsrun single =>
      simp only [place, Option.some.injEq] at served
      subst served
      exact invariant.invoke place orderly
  | gathering loop hartsrun =>
      simp only [place, Option.some.injEq] at served
      subst served
      exact invariant.gather place ready
  | inspecting loop hartsrun origStatus rest =>
      cases rest with
      | nil =>
          simp only [place, Option.some.injEq] at served
          subst served
          exact invariant.restore place
      | cons hart rest =>
          simp only [place, Option.some.injEq] at served
          subst served
          exact invariant.inspect place orderly
  | awaiting loop hartsrun origStatus hart rest =>
      simp only [place, Option.some.injEq] at served
      subst served
      exact invariant.await place ready
  | returned loop hartsrun =>
      simp only [place, Option.some.injEq] at served
      subst served
      exact invariant.conclude place harts

/-- An orderly step keeps the invariant. -/
theorem Invariant.step {harts : List ι} {action : Action ι}
    (invariant : session.Invariant) (orderly : session.Orderly action)
    (stepped : session.step harts action = some later) : later.Invariant := by
  unfold Session.step at stepped
  split at stepped
  next => cases stepped
  next =>
    cases action with
    | deliver actions =>
        simp only at stepped
        split at stepped
        next listening =>
          cases stepped
          exact invariant.deliver listening actions
        next => cases stepped
    | dispatch process =>
        obtain ⟨kernel, dispatched, rfl⟩ := Option.map_eq_some_iff.1 stepped
        have consistent := Kernel.consistent_dispatch dispatched
        obtain ⟨_, rfl⟩ := Kernel.dispatch_eq_some dispatched
        exact ⟨consistent, invariant.coherent, invariant.serves⟩
    | elapse hart =>
        obtain ⟨kernel, elapsed, rfl⟩ := Option.map_eq_some_iff.1 stepped
        exact invariant.elapse elapsed
    | serve =>
        simp only at stepped
        split at stepped
        next controls => exact invariant.serve controls orderly stepped
        next => cases stepped
    | advance choice =>
        simp only at stepped
        split at stepped
        next hart controls =>
          have moves := moves_of_advance invariant controls orderly stepped
          exact moves.invariant (invariant.not_settled controls) invariant
        next => cases stepped

/-- A session whose steps are all orderly. -/
inductive OrderlyRun (harts : List ι) : Session ι → Prop
  | boot : OrderlyRun harts boot
  | step {session later : Session ι} {action : Action ι}
      (run : OrderlyRun harts session) (orderly : session.Orderly action)
      (stepped : session.step harts action = some later) :
      OrderlyRun harts later

theorem invariant_of_orderlyRun {harts : List ι}
    (run : OrderlyRun harts session) : session.Invariant := by
  induction run with
  | boot => exact invariant_boot
  | step _ orderly stepped inductionHypothesis =>
      exact inductionHypothesis.step orderly stepped

/-! ## Sessions to look at -/

instance (session : Session ι) (hart : ι) : Decidable (session.Waits hart) :=
  inferInstanceAs (Decidable (_ ∧ _))

instance (session : Session ι) (hart : ι) : Decidable (session.Settled hart) :=
  inferInstanceAs (Decidable (_ ∨ _))

instance (session : Session ι) :
    (server : Serving ι) → Decidable (session.OrderlyServe server)
  | .invoking _ hartsrun _ => inferInstanceAs (Decidable (_ → ∃ _ ∈ hartsrun, _))
  | .inspecting _ _ _ (_ :: _) => inferInstanceAs (Decidable (_ → _))
  | .inspecting _ _ _ [] | .listening | .acting _ | .gathering _ _
  | .awaiting _ _ _ _ _ | .returned _ _ | .failed => .isTrue trivial

instance (session : Session ι) :
    (current : Option (Process ι)) → Decidable (session.OrderlyExit current)
  | some (.runner _) => inferInstanceAs (Decidable (_ = _))
  | some .server | none => .isTrue trivial

instance (session : Session ι) :
    (action : Action ι) → Decidable (session.Orderly action)
  | .serve => inferInstanceAs (Decidable (session.OrderlyServe _))
  | .advance (.complete true) =>
      inferInstanceAs (Decidable (session.OrderlyExit _))
  | .advance (.complete false) | .advance .breakpoint | .advance .delay
  | .advance .proceed | .deliver _ | .dispatch _ | .elapse _ => .isTrue trivial

/-- The actions of a list, one after another, while they are allowed. -/
def execute (allowed : Session ι → Action ι → Bool) (harts : List ι) :
    List (Action ι) → Session ι → Option (Session ι)
  | [], session => some session
  | action :: actions, session =>
      if allowed session action then
        (session.step harts action).bind (execute allowed harts actions)
      else none

theorem run_of_execute {allowed : Session ι → Action ι → Bool} {harts : List ι}
    {actions : List (Action ι)} (run : Run harts session)
    (executed : execute allowed harts actions session = some later) :
    Run harts later := by
  induction actions generalizing session with
  | nil =>
      cases executed
      exact run
  | cons action actions inductionHypothesis =>
      rw [execute] at executed
      split at executed
      next =>
        obtain ⟨next, stepped, rest⟩ := Option.bind_eq_some_iff.1 executed
        exact inductionHypothesis (run.step stepped) rest
      next => cases executed

theorem orderlyRun_of_execute {harts : List ι} {actions : List (Action ι)}
    (run : OrderlyRun harts session)
    (executed : execute (fun session action => session.Orderly action) harts
      actions session = some later) : OrderlyRun harts later := by
  induction actions generalizing session with
  | nil =>
      cases executed
      exact run
  | cons action actions inductionHypothesis =>
      rw [execute] at executed
      split at executed
      next orderly =>
        obtain ⟨next, stepped, rest⟩ := Option.bind_eq_some_iff.1 executed
        exact inductionHypothesis (run.step (of_decide_eq_true orderly) stepped)
          rest
      next => cases executed

/-- `vCont;c` -/
def continueAll : Vcont :=
  ⟨ascii 'c', -1, ⟨threadUnset, threadAll⟩⟩

/-- Two harts run up to breakpoints, the second after one instruction.  They
stop before the server looks at them, or the second is still in its last
wait. -/
def breakpoints : List (Action Bool) :=
  [.deliver [continueAll], .dispatch .server, .serve, .serve,
    .dispatch (.runner false), .advance .proceed, .advance .breakpoint,
    .advance .proceed,
    .dispatch (.runner true), .advance .proceed, .advance .proceed,
    .advance (.complete false), .advance .proceed, .advance .proceed,
    .advance .breakpoint, .advance .proceed,
    .elapse false, .dispatch (.runner false), .advance .proceed]

def bothStop : List (Action Bool) :=
  breakpoints ++
    [.elapse true, .dispatch (.runner true), .advance .proceed,
      .dispatch .server, .serve, .serve, .serve, .serve]

def lateSync : List (Action Bool) :=
  breakpoints ++ [.dispatch .server, .serve, .serve, .serve, .serve]

/-- The only hart terminates and is to be continued. -/
def afterExit : List (Action Unit) :=
  [.deliver [continueAll], .dispatch .server, .serve, .serve,
    .dispatch (.runner ()), .advance .proceed, .advance .proceed,
    .advance (.complete true), .advance .proceed, .advance .proceed,
    .elapse (), .dispatch (.runner ()), .advance .proceed,
    .dispatch .server, .serve, .serve, .serve, .serve, .serve,
    .deliver [continueAll], .dispatch .server, .serve, .serve]

/-- The second hart terminates in the instruction that it finishes while it is
told to stop. -/
def lateExit : List (Action Bool) :=
  [.deliver [continueAll], .dispatch .server, .serve, .serve,
    .dispatch (.runner false), .advance .proceed, .advance .breakpoint,
    .advance .proceed,
    .dispatch (.runner true), .advance .proceed, .advance .proceed,
    .advance .delay,
    .elapse false, .dispatch (.runner false), .advance .proceed,
    .dispatch .server, .serve, .serve, .serve,
    .elapse true, .dispatch (.runner true), .advance (.complete true),
    .advance .proceed, .advance .proceed,
    .elapse true, .dispatch (.runner true), .advance .proceed,
    .dispatch .server, .serve, .serve]

/-- A session on a list of actions whose last state passes a test. -/
theorem exists_run (harts : List ι) (actions : List (Action ι))
    (test : Session ι → Bool)
    (passes : (execute (fun _ _ => true) harts actions boot).any test = true) :
    ∃ session, Run harts session ∧ test session = true := by
  obtain ⟨session, executed, passed⟩ := Option.any_eq_true _ _ |>.1 passes
  exact ⟨session, run_of_execute .boot executed, passed⟩

/-- In a session whose steps are all orderly, the protocol holds in every
state. -/
theorem allStop_of_orderlyRun {harts : List ι}
    (run : OrderlyRun harts session) : session.AllStop :=
  (invariant_of_orderlyRun run).allStop

theorem allStop_bothStop :
    ∃ session : Session Bool,
      session.server = .returned ⟨[continueAll], [], none⟩ [false, true] ∧
        session.AllStop := by
  have passes : (execute (fun session action => session.Orderly action)
      [false, true] bothStop boot).any (fun session => session.server =
        .returned ⟨[continueAll], [], none⟩ [false, true]) = true := by
    decide
  obtain ⟨session, executed, passed⟩ := Option.any_eq_true _ _ |>.1 passes
  exact ⟨session, of_decide_eq_true passed,
    allStop_of_orderlyRun (orderlyRun_of_execute .boot executed)⟩

/-- `run_threads` returns while a hart is in its last wait, it waits for a hart
that has exited, and it takes a hart that has exited for one that runs. -/
theorem not_allStop :
    (∃ session : Session Bool, Run [false, true] session ∧
        ¬ session.AllStop) ∧
      (∃ session : Session Unit, Run [()] session ∧ ¬ session.AllStop) ∧
      ∃ session : Session Bool, Run [false, true] session ∧
        ¬ session.AllStop ∧ session.point true = .exited := by
  refine ⟨?_, ?_, ?_⟩
  · obtain ⟨session, run, passed⟩ := exists_run [false, true] lateSync (fun session =>
      session.server = .returned ⟨[continueAll], [], none⟩ [false, true] ∧
        session.status true ≠ .terminated ∧ ¬ session.Waits true) (by decide)
    obtain ⟨returned, goesOn, late⟩ := of_decide_eq_true passed
    exact ⟨session, run, fun allStop =>
      late (allStop.returned returned true goesOn)⟩
  · obtain ⟨session, run, passed⟩ := exists_run [()] afterExit (fun session =>
      session.kernel.phase .server = .waiting [.stop ()] ∧
        session.Settled ()) (by decide)
    obtain ⟨waiting, settled⟩ := of_decide_eq_true passed
    refine ⟨session, run, fun allStop => ?_⟩
    rcases allStop.awaited waiting with packet | ⟨hart, _, runs⟩
    · cases packet
    · exact runs settled
  · obtain ⟨session, run, passed⟩ := exists_run [false, true] lateExit (fun session =>
      session.server = .returned ⟨[continueAll], [], none⟩ [false, true] ∧
        session.status true ≠ .terminated ∧ session.point true = .exited)
      (by decide)
    obtain ⟨returned, goesOn, exited⟩ := of_decide_eq_true passed
    refine ⟨session, run, fun allStop => ?_, exited⟩
    have waits := allStop.returned returned true goesOn
    rw [waits.1] at exited
    cases exited

end Session

end Gdb

end RiscvVp
