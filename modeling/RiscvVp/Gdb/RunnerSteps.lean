import RiscvVp.Gdb.AllStop

/-!
# Steps of the runners

A runner that has control changes its own point and status only.  It goes on,
or it stops, and then its status shows it and its stop event is notified.  A
step of either kind keeps the invariant of the all-stop protocol.
-/

namespace RiscvVp

namespace Gdb

open Cooperative

namespace Session

variable {ι : Type} {session later : Session ι} {hart : ι}

/-- All that is not the hart's own stays. -/
structure Keeps (session : Session ι) (hart : ι) (later : Session ι) :
    Prop where
  server : later.server = session.server
  status : ∀ other, other ≠ hart → later.status other = session.status other
  point : ∀ other, other ≠ hart → later.point other = session.point other
  phase : ∀ process, process ≠ .runner hart →
    later.kernel.phase process = session.kernel.phase process

theorem Keeps.trans {last : Session ι} (first : session.Keeps hart later)
    (second : later.Keeps hart last) : session.Keeps hart last where
  server := second.server.trans first.server
  status other different :=
    (second.status other different).trans (first.status other different)
  point other different :=
    (second.point other different).trans (first.point other different)
  phase process different :=
    (second.phase process different).trans (first.phase process different)

variable [DecidableEq ι]

theorem keeps_moveTo (point : Point) :
    session.Keeps hart (session.moveTo hart point) where
  server := rfl
  status _ _ := rfl
  point _ different := Function.update_of_ne different ..
  phase _ _ := rfl

theorem keeps_setStatus (status : CoreExecStatus) :
    session.Keeps hart (session.setStatus hart status) where
  server := rfl
  status _ different := Function.update_of_ne different ..
  point _ _ := rfl
  phase _ _ := rfl

theorem keeps_delay : session.Keeps hart (session.delay hart) where
  server := rfl
  status _ _ := rfl
  point _ _ := rfl
  phase _ different := Kernel.phase_suspend_of_ne different _

@[simp]
theorem moveTo_point (point : Point) :
    (session.moveTo hart point).point hart = point :=
  Function.update_self ..

@[simp]
theorem moveTo_status (point : Point) :
    (session.moveTo hart point).status = session.status :=
  rfl

@[simp]
theorem moveTo_kernel (point : Point) :
    (session.moveTo hart point).kernel = session.kernel :=
  rfl

@[simp]
theorem setStatus_status (status : CoreExecStatus) :
    (session.setStatus hart status).status hart = status :=
  Function.update_self ..

@[simp]
theorem setStatus_point (status : CoreExecStatus) :
    (session.setStatus hart status).point = session.point :=
  rfl

@[simp]
theorem setStatus_kernel (status : CoreExecStatus) :
    (session.setStatus hart status).kernel = session.kernel :=
  rfl

@[simp]
theorem delay_status : (session.delay hart).status = session.status :=
  rfl

@[simp]
theorem delay_point : (session.delay hart).point = session.point :=
  rfl

@[simp]
theorem delay_kernel : (session.delay hart).kernel =
    session.kernel.suspend (.runner hart) .delayed :=
  rfl

/-! ## Steps of a runner -/

/-- A step of a hart that runs: the hart goes on, or it stops and says so. -/
structure Moves (session : Session ι) (hart : ι) (later : Session ι) :
    Prop where
  server : later.server = session.server
  status : ∀ other, other ≠ hart → later.status other = session.status other
  point : ∀ other, other ≠ hart → later.point other = session.point other
  phase : ∀ other, other ≠ hart → later.kernel.phase (.runner other) =
    session.kernel.phase (.runner other)
  consistent : later.kernel.Consistent
  coherent : later.Coherent hart
  marked : session.status hart = .hitBreakpoint →
    later.status hart = .hitBreakpoint
  stops :
    ¬ later.Settled hart ∧
        later.kernel.phase .server = session.kernel.phase .server ∨
      later.Settled hart ∧ later.status hart ≠ .runnable ∧
        later.kernel.phase .server =
          (session.kernel.phase .server).notified [.stop hart]

/-- A hart that goes on. -/
theorem Keeps.moves (keeps : session.Keeps hart later)
    (consistent : later.kernel.Consistent)
    (phase : later.kernel.phase (.runner hart) = .ready ∨
      later.kernel.phase (.runner hart) = .delayed)
    (running : later.point hart ≠ .parked ∧ later.point hart ≠ .exited)
    (stopping : later.point hart = .stopping →
      later.status hart ≠ .runnable)
    (marked : session.status hart = .hitBreakpoint →
      later.status hart = .hitBreakpoint) : session.Moves hart later where
  server := keeps.server
  status := keeps.status
  point := keeps.point
  phase other different :=
    keeps.phase _ fun same => different (Process.runner.inj same)
  consistent := consistent
  coherent := by
    unfold Coherent
    cases place : later.point hart with
    | parked => exact absurd place running.1
    | exited => exact absurd place running.2
    | stopping => exact ⟨phase, stopping place⟩
    | stepping single => exact phase
    | executing single => exact phase
    | updating single => exact phase
    | stepped single => exact phase
  marked := marked
  stops := by
    refine .inl ⟨?_, keeps.phase _ nofun⟩
    rintro (waits | exited)
    · exact running.1 waits.1
    · exact running.2 exited

/-- A hart that moves on without a wait. -/
theorem moves_moveTo {point : Point} (consistent : session.kernel.Consistent)
    (ready : session.kernel.phase (.runner hart) = .ready)
    (running : point ≠ .parked ∧ point ≠ .exited ∧ point ≠ .stopping) :
    session.Moves hart (session.moveTo hart point) := by
  apply (keeps_moveTo point).moves consistent (.inl ready)
  · rw [moveTo_point]
    exact ⟨running.1, running.2.1⟩
  · rw [moveTo_point]
    exact fun stopping => absurd stopping running.2.2
  · exact id

/-- A hart whose status changes from `Runnable` as it moves on. -/
theorem moves_setStatus {status : CoreExecStatus} {point : Point}
    (consistent : session.kernel.Consistent)
    (ready : session.kernel.phase (.runner hart) = .ready)
    (running : point ≠ .parked ∧ point ≠ .exited)
    (shown : status ≠ .runnable)
    (marked : session.status hart = .hitBreakpoint →
      status = .hitBreakpoint) :
    session.Moves hart ((session.setStatus hart status).moveTo hart point) := by
  apply ((keeps_setStatus status).trans (keeps_moveTo point)).moves consistent
    (.inl ready)
  · rwa [moveTo_point]
  · rw [moveTo_status, setStatus_status]
    exact fun _ => shown
  · rwa [moveTo_status, setStatus_status]

/-- A hart that waits as it moves on. -/
theorem moves_delay {point : Point}
    (running : point ≠ .parked ∧ point ≠ .exited)
    (shown : point = .stopping → session.status hart ≠ .runnable) :
    session.Moves hart ((session.delay hart).moveTo hart point) := by
  apply (keeps_delay.trans (keeps_moveTo point)).moves
    (Kernel.consistent_suspend _ _)
  · rw [moveTo_kernel, delay_kernel, Kernel.phase_suspend_self]
    exact .inr rfl
  · rwa [moveTo_point]
  · rwa [moveTo_point]
  · exact id

/-- The stop of a hart reaches no runner. -/
theorem phase_notify_stop (coherent : ∀ other, session.Coherent other)
    (other : ι) :
    (session.kernel.notify [.stop hart]).phase (.runner other) =
      session.kernel.phase (.runner other) := by
  apply Phase.notified_eq_self
  intro awaited waiting event notified
  rw [((coherent other).waits waiting).1]
  rw [List.mem_singleton] at notified ⊢
  subst notified
  exact nofun

/-- A hart that stops. -/
theorem moves_halt {phase : Phase (Event ι)} {point : Point}
    (coherent : ∀ other, session.Coherent other)
    (stopping : session.point hart = .stopping)
    (settles : (session.halt hart phase point).Settled hart)
    (last : (session.halt hart phase point).Coherent hart) :
    session.Moves hart (session.halt hart phase point) where
  server := rfl
  status _ _ := rfl
  point _ different := Function.update_of_ne different ..
  phase other different := by
    have apart : Process.runner other ≠ .runner hart :=
      fun same => different (Process.runner.inj same)
    exact (Kernel.phase_suspend_of_ne apart _).trans
      (phase_notify_stop coherent other)
  consistent := Kernel.consistent_suspend _ _
  coherent := last
  marked := id
  stops := by
    have shown : session.status hart ≠ .runnable := by
      have own := coherent hart
      rw [Coherent, stopping] at own
      exact own.2
    exact .inr ⟨settles, shown, Kernel.phase_suspend_of_ne (by simp) _⟩

theorem halt_point {phase : Phase (Event ι)} {point : Point} :
    (session.halt hart phase point).point hart = point :=
  Function.update_self ..

theorem halt_phase {phase : Phase (Event ι)} {point : Point} :
    (session.halt hart phase point).kernel.phase (.runner hart) = phase :=
  Kernel.phase_suspend_self ..

theorem moves_stop (coherent : ∀ other, session.Coherent other)
    (stopping : session.point hart = .stopping) :
    session.Moves hart (session.stop hart) := by
  unfold stop
  split
  next terminated =>
    apply moves_halt coherent stopping
    · exact .inr halt_point
    · rw [Coherent, halt_point]
      exact ⟨halt_phase, terminated⟩
  next goesOn =>
    apply moves_halt coherent stopping
    · exact .inl ⟨halt_point, halt_phase⟩
    · rw [Coherent, halt_point]
      exact ⟨.inl halt_phase, goesOn⟩

/-- Every step of a runner is such a step, if the hart does not terminate when
it should only stop. -/
theorem moves_of_advance {choice : Choice} (invariant : session.Invariant)
    (controls : session.kernel.current = some (.runner hart))
    (orderly : session.Orderly (.advance choice))
    (advanced : session.advance hart choice = some later) :
    session.Moves hart later := by
  obtain ⟨consistent, coherent, _⟩ := invariant
  have ready := consistent _ controls
  cases choice with
  | proceed =>
      cases place : session.point hart with
      | parked =>
          simp only [advance, place, Option.some.injEq] at advanced
          subst advanced
          exact moves_moveTo consistent ready (by simp)
      | stepping single =>
          simp only [advance, place, Option.some.injEq] at advanced
          subst advanced
          exact moves_moveTo consistent ready (by simp)
      | updating single =>
          simp only [advance, place, Option.some.injEq] at advanced
          subst advanced
          exact moves_moveTo consistent ready (by simp)
      | stepped single =>
          cases single with
          | true =>
              simp only [advance, place] at advanced
              split at advanced
              next runs =>
                cases advanced
                exact moves_setStatus consistent ready (by simp) nofun
                  fun _ => rfl
              next shown =>
                cases advanced
                apply (keeps_moveTo _).moves consistent (.inl ready)
                · simp
                · exact fun _ => shown
                · exact id
          | false =>
              simp only [advance, place] at advanced
              split at advanced
              next runs =>
                cases advanced
                exact moves_moveTo consistent ready (by simp)
              next shown =>
                cases advanced
                exact moves_delay (by simp) fun _ => shown
      | stopping =>
          simp only [advance, place, Option.some.injEq] at advanced
          subst advanced
          exact moves_stop coherent place
      | executing single => simp [advance, place] at advanced
      | exited => simp [advance, place] at advanced
  | breakpoint =>
      cases place : session.point hart with
      | stepping single =>
          simp only [advance, place, Option.some.injEq] at advanced
          subst advanced
          exact moves_setStatus consistent ready (by simp) nofun fun _ => rfl
      | _ => simp [advance, place] at advanced
  | delay =>
      cases place : session.point hart with
      | executing single =>
          simp only [advance, place, Option.some.injEq] at advanced
          subst advanced
          apply keeps_delay.moves (Kernel.consistent_suspend _ _)
          · exact .inr (Kernel.phase_suspend_self ..)
          · simp [place]
          · simp [place]
          · exact id
      | updating single =>
          simp only [advance, place, Option.some.injEq] at advanced
          subst advanced
          exact moves_delay (by simp) nofun
      | _ => simp [advance, place] at advanced
  | complete shallExit =>
      cases place : session.point hart with
      | executing single =>
          cases shallExit with
          | true =>
              have runs : session.status hart = .runnable := by
                rwa [Orderly, controls] at orderly
              simp only [advance, place, Option.some.injEq, if_true] at advanced
              subst advanced
              exact moves_setStatus consistent ready (by simp) nofun
                (by simp [runs])
          | false =>
              simp only [advance, place, Option.some.injEq, Bool.false_eq_true,
                if_false] at advanced
              subst advanced
              exact moves_moveTo consistent ready (by simp)
      | _ => simp [advance, place] at advanced

/-! ## The invariant along the steps of a runner -/

namespace Moves

variable (moves : session.Moves hart later)

include moves

theorem settled_iff {other : ι} (different : other ≠ hart) :
    later.Settled other ↔ session.Settled other :=
  settled_congr session (moves.point other different) (moves.phase other different)

/-- Only a hart that may run can have moved. -/
theorem confined (unsettled : ¬ session.Settled hart) {harts : List ι}
    (confined : session.Confined harts) : later.Confined harts := by
  intro other outside
  have different : other ≠ hart := by
    rintro rfl
    exact unsettled (confined other outside)
  exact (moves.settled_iff different).2 (confined other outside)

/-- If it has stopped, its status shows it. -/
theorem stopped {harts : List ι} (stopped : session.Stopped harts) :
    later.Stopped harts := by
  intro other among settled
  by_cases same : other = hart
  · subst same
    rcases moves.stops with ⟨runs, _⟩ | ⟨_, shown, _⟩
    · exact absurd settled runs
    · exact shown
  · rw [moves.status other same]
    exact stopped other among ((moves.settled_iff same).1 settled)

theorem untouched {harts : List ι} (member : hart ∈ harts)
    (untouched : session.Untouched harts) : later.Untouched harts := by
  intro other outside
  rw [moves.status other fun same => outside (same ▸ member)]
  exact untouched other outside

/-- A hart whose status is to be restored has settled, or keeps the status that
`run_threads` has given it. -/
theorem recorded (unsettled : ¬ session.Settled hart)
    {hartsrun awaited : List ι} {origStatus : List (ι × CoreExecStatus)}
    (marked : hart ∈ awaited → session.status hart = .hitBreakpoint)
    (recorded : session.Recorded hartsrun awaited origStatus) :
    later.Recorded hartsrun awaited origStatus := by
  intro entry among
  obtain ⟨member, settles, terminates⟩ := recorded entry among
  by_cases same : entry.1 = hart
  · have waitedFor : entry.1 ∈ awaited :=
      settles.resolve_right (same ▸ unsettled)
    have breakpoint := marked (same ▸ waitedFor)
    refine ⟨member, .inl waitedFor, ?_⟩
    rw [terminates, same, breakpoint, moves.marked breakpoint]
  · rw [moves.status entry.1 same, moves.settled_iff same]
    exact ⟨member, settles, terminates⟩

/-- The server is reached by the stop of a hart that it waits for. -/
theorem phase_server {events : List (Event ι)} (awaits : .stop hart ∈ events)
    (waiting : session.kernel.phase .server = .waiting events) :
    ¬ later.Settled hart ∧ later.kernel.phase .server = .waiting events ∨
      later.Settled hart ∧ later.kernel.phase .server = .ready := by
  rcases moves.stops with ⟨runs, phase⟩ | ⟨settled, _, phase⟩
  · exact .inl ⟨runs, phase.trans waiting⟩
  · refine .inr ⟨settled, ?_⟩
    rw [phase, waiting]
    exact Phase.notified_waiting (List.mem_singleton_self _) awaits

theorem phase_server_ready (ready : session.kernel.phase .server = .ready) :
    later.kernel.phase .server = .ready := by
  rcases moves.stops with ⟨_, phase⟩ | ⟨_, _, phase⟩
  · exact phase.trans ready
  · rw [phase, ready]
    rfl

theorem serves (unsettled : ¬ session.Settled hart)
    (serves : session.Serves session.server) : later.Serves later.server := by
  rw [moves.server]
  have possible : ∀ {harts : List ι}, session.Confined harts → hart ∈ harts := by
    intro harts confined
    by_contra outside
    exact unsettled (confined hart outside)
  cases place : session.server with
  | listening =>
      rw [place] at serves
      exact absurd (possible serves.1) (List.not_mem_nil)
  | acting loop =>
      rw [place] at serves
      exact absurd (possible serves.1) (List.not_mem_nil)
  | invoking loop hartsrun single =>
      rw [place] at serves
      exact absurd (possible serves.1) (List.not_mem_nil)
  | returned loop hartsrun =>
      rw [place] at serves
      exact absurd (possible serves.1) (List.not_mem_nil)
  | failed =>
      rw [place] at serves
      exact moves.phase_server_ready serves
  | gathering loop hartsrun =>
      rw [place] at serves
      obtain ⟨confined, untouched, stopped, server⟩ := serves
      have member := possible confined
      refine ⟨moves.confined unsettled confined,
        moves.untouched member untouched, moves.stopped stopped, ?_⟩
      rcases server with ready | ⟨waiting, _⟩
      · exact .inl (moves.phase_server_ready ready)
      · have awaits : Event.stop hart ∈ hartsrun.map .stop :=
          List.mem_map_of_mem member
        rcases moves.phase_server awaits waiting with
          ⟨runs, phase⟩ | ⟨_, ready⟩
        · exact .inr ⟨phase, hart, member, runs⟩
        · exact .inl ready
  | inspecting loop hartsrun origStatus rest =>
      rw [place] at serves
      obtain ⟨confined, untouched, stopped, subset, recorded, ready⟩ := serves
      have member := subset (possible confined)
      exact ⟨moves.confined unsettled confined,
        moves.untouched member untouched, moves.stopped stopped, subset,
        moves.recorded unsettled (by simp) recorded,
        moves.phase_server_ready ready⟩
  | awaiting loop hartsrun origStatus awaited rest =>
      rw [place] at serves
      obtain ⟨confined, untouched, stopped, subset, recorded, marked, server⟩ :=
        serves
      have member := subset (possible confined)
      have stays : later.status awaited = .hitBreakpoint := by
        by_cases same : awaited = hart
        · rw [same] at marked ⊢
          exact moves.marked marked
        · rw [moves.status awaited same, marked]
      refine ⟨moves.confined unsettled confined,
        moves.untouched member untouched, moves.stopped stopped, subset,
        moves.recorded unsettled (by
          rintro (_ | ⟨_, impossible⟩)
          · exact marked
          · cases impossible) recorded, stays, ?_⟩
      rcases server with ⟨ready, settled⟩ | ⟨waiting, runs⟩
      · have different : awaited ≠ hart := by
          rintro rfl
          exact unsettled settled
        exact .inl ⟨moves.phase_server_ready ready,
          (moves.settled_iff different).2 settled⟩
      · by_cases same : awaited = hart
        · subst same
          rcases moves.phase_server (List.mem_singleton_self _) waiting with
            ⟨goesOn, phase⟩ | ⟨settled, ready⟩
          · exact .inr ⟨phase, goesOn⟩
          · exact .inl ⟨ready, settled⟩
        · refine .inr ⟨?_, fun settled =>
            runs ((moves.settled_iff same).1 settled)⟩
          rcases moves.stops with ⟨_, phase⟩ | ⟨_, _, phase⟩
          · exact phase.trans waiting
          · rw [phase, waiting]
            apply Phase.notified_eq_self
            intro events waits event notified
            cases waits
            rw [List.mem_singleton] at notified ⊢
            subst notified
            exact fun equal => same (Event.stop.inj equal).symm

theorem invariant (unsettled : ¬ session.Settled hart)
    (invariant : session.Invariant) : later.Invariant where
  consistent := moves.consistent
  coherent other := by
    by_cases same : other = hart
    · subst same
      exact moves.coherent
    · exact (coherent_congr session (moves.point other same) (moves.phase other same)
        (moves.status other same)).2 (invariant.coherent other)
  serves := moves.serves unsettled invariant.serves

end Moves

end Session

end Gdb

end RiscvVp
