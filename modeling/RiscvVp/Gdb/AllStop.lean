import RiscvVp.Gdb.Session

/-!
# The all-stop protocol

When `run_threads` returns, the harts it ran are meant to wait for their next
run, and none of its own waits is meant to be for a hart that has stopped.

It looks at the status of a hart to see whether the hart still runs.  The
status changes before the hart has stopped, it can change again until then, and
a hart that has exited does not stop again.  Where none of these three comes
in between, the protocol holds.
-/

namespace RiscvVp

namespace Gdb

open Cooperative

variable {ι : Type}

namespace Session

/-! ## The protocol -/

/-- The runner waits for its next run. -/
def Waits (session : Session ι) (hart : ι) : Prop :=
  session.point hart = .parked ∧
    session.kernel.phase (.runner hart) = .waiting [.run hart]

/-- The runner has notified its stop event for the last time so far. -/
def Settled (session : Session ι) (hart : ι) : Prop :=
  session.Waits hart ∨ session.point hart = .exited

structure AllStop (session : Session ι) : Prop where
  /-- every hart, run by `run_threads` or not, waits for its next run -/
  returned : ∀ {loop hartsrun}, session.server = .returned loop hartsrun →
    ∀ hart, session.status hart ≠ .terminated → session.Waits hart
  /-- what it is about to run hears of it -/
  invoked : ∀ {loop hartsrun single},
    session.server = .invoking loop hartsrun single →
    ∀ hart ∈ hartsrun, session.status hart ≠ .terminated →
      session.Waits hart ∧ session.status hart = .runnable
  /-- it waits for harts that have yet to stop -/
  awaited : ∀ {events}, session.kernel.phase .server = .waiting events →
    events = [.packet] ∨
      ∃ hart, .stop hart ∈ events ∧ ¬ session.Settled hart

/-- The harts to run have not all exited, and a hart whose status has changed
has stopped when `run_threads` looks at it. -/
def OrderlyServe (session : Session ι) : Serving ι → Prop
  | .invoking _ hartsrun _ =>
      hartsrun ≠ [] → ∃ hart ∈ hartsrun, session.point hart ≠ .exited
  | .inspecting _ _ _ (hart :: _) =>
      session.status hart ≠ .runnable → session.Settled hart
  | _ => True

/-- A hart that terminates does so while its status is `Runnable`. -/
def OrderlyExit (session : Session ι) : Option (Process ι) → Prop
  | some (.runner hart) => session.status hart = .runnable
  | _ => True

def Orderly (session : Session ι) : Action ι → Prop
  | .serve => session.OrderlyServe session.server
  | .advance (.complete true) => session.OrderlyExit session.kernel.current
  | _ => True

/-! ## The invariant -/

/-- What a runner's point says of its phase and its status. -/
def Coherent (session : Session ι) (hart : ι) : Prop :=
  match session.point hart with
  | .parked =>
      (session.kernel.phase (.runner hart) = .waiting [.run hart] ∨
        session.kernel.phase (.runner hart) = .ready) ∧
      session.status hart ≠ .terminated
  | .stopping =>
      (session.kernel.phase (.runner hart) = .ready ∨
        session.kernel.phase (.runner hart) = .delayed) ∧
      session.status hart ≠ .runnable
  | .exited =>
      session.kernel.phase (.runner hart) = .finished ∧
        session.status hart = .terminated
  | _ =>
      session.kernel.phase (.runner hart) = .ready ∨
        session.kernel.phase (.runner hart) = .delayed

variable (session : Session ι)

/-- The harts that may not have stopped are among these. -/
def Confined (harts : List ι) : Prop :=
  ∀ hart, hart ∉ harts → session.Settled hart

/-- Those of them that have stopped show it in their status. -/
def Stopped (harts : List ι) : Prop :=
  ∀ hart ∈ harts, session.Settled hart → session.status hart ≠ .runnable

/-- No other hart is at a breakpoint. -/
def Untouched (harts : List ι) : Prop :=
  ∀ hart, hart ∉ harts → session.status hart ≠ .hitBreakpoint

/-- The statuses to restore are those of harts that were run.  They have
stopped, but for some, and have terminated if their status says so. -/
def Recorded (hartsrun awaited : List ι)
    (origStatus : List (ι × CoreExecStatus)) : Prop :=
  ∀ entry ∈ origStatus, entry.1 ∈ hartsrun ∧
    (entry.1 ∈ awaited ∨ session.Settled entry.1) ∧
    (entry.2 = .terminated ↔ session.status entry.1 = .terminated)

/-- What holds where the server is. -/
def Serves : Serving ι → Prop
  | .listening =>
      session.Confined [] ∧ session.Untouched [] ∧
        session.kernel.phase .server = .waiting [.packet]
  | .acting _ | .invoking _ _ _ =>
      session.Confined [] ∧ session.Untouched [] ∧
        session.kernel.phase .server = .ready
  | .gathering _ hartsrun =>
      session.Confined hartsrun ∧ session.Untouched hartsrun ∧
        session.Stopped hartsrun ∧
        (session.kernel.phase .server = .ready ∨
          session.kernel.phase .server = .waiting (hartsrun.map .stop) ∧
            ∃ hart ∈ hartsrun, ¬ session.Settled hart)
  | .inspecting _ hartsrun origStatus rest =>
      session.Confined rest ∧ session.Untouched hartsrun ∧
        session.Stopped rest ∧ rest ⊆ hartsrun ∧
        session.Recorded hartsrun [] origStatus ∧
        session.kernel.phase .server = .ready
  | .awaiting _ hartsrun origStatus hart rest =>
      session.Confined (hart :: rest) ∧ session.Untouched hartsrun ∧
        session.Stopped rest ∧ hart :: rest ⊆ hartsrun ∧
        session.Recorded hartsrun [hart] origStatus ∧
        session.status hart = .hitBreakpoint ∧
        (session.kernel.phase .server = .ready ∧ session.Settled hart ∨
          session.kernel.phase .server = .waiting [.stop hart] ∧
            ¬ session.Settled hart)
  | .returned _ hartsrun =>
      session.Confined [] ∧ session.Untouched hartsrun ∧
        session.kernel.phase .server = .ready
  | .failed => session.kernel.phase .server = .ready

structure Invariant : Prop where
  consistent : session.kernel.Consistent
  coherent : ∀ hart, session.Coherent hart
  serves : session.Serves session.server

variable {session : Session ι} {later : Session ι} {hart : ι}

theorem invariant_boot : (boot : Session ι).Invariant where
  consistent _ controls := nomatch controls
  coherent _ := ⟨.inl rfl, nofun⟩
  serves := ⟨fun _ _ => .inl ⟨rfl, rfl⟩, fun _ _ => nofun, rfl⟩

/-- The invariant is the protocol and more. -/
theorem Invariant.allStop (invariant : session.Invariant) :
    session.AllStop where
  returned {loop hartsrun} returned hart goesOn := by
    have serves := invariant.serves
    rw [returned] at serves
    rcases serves.1 hart List.not_mem_nil with waits | exited
    · exact waits
    · have coherent := invariant.coherent hart
      rw [Coherent, exited] at coherent
      exact absurd coherent.2 goesOn
  invoked {loop hartsrun single} invoking hart member goesOn := by
    have serves := invariant.serves
    rw [invoking] at serves
    rcases serves.1 hart List.not_mem_nil with waits | exited
    · refine ⟨waits, ?_⟩
      have untouched := serves.2.1 hart List.not_mem_nil
      cases status : session.status hart with
      | runnable => rfl
      | hitBreakpoint => exact absurd status untouched
      | terminated => exact absurd status goesOn
    · have coherent := invariant.coherent hart
      rw [Coherent, exited] at coherent
      exact absurd coherent.2 goesOn
  awaited {events} waiting := by
    have serves := invariant.serves
    have notReady : session.kernel.phase .server ≠ .ready := by
      rw [waiting]
      exact nofun
    cases place : session.server with
    | listening =>
        rw [place] at serves
        exact .inl (Phase.waiting.inj (waiting.symm.trans serves.2.2))
    | acting loop =>
        rw [place] at serves
        exact absurd serves.2.2 notReady
    | invoking loop hartsrun single =>
        rw [place] at serves
        exact absurd serves.2.2 notReady
    | gathering loop hartsrun =>
        rw [place] at serves
        rcases serves.2.2.2 with ready | ⟨waits, hart, member, runs⟩
        · exact absurd ready notReady
        · obtain rfl := Phase.waiting.inj (waiting.symm.trans waits)
          exact .inr ⟨hart, List.mem_map_of_mem member, runs⟩
    | inspecting loop hartsrun origStatus rest =>
        rw [place] at serves
        exact absurd serves.2.2.2.2.2 notReady
    | awaiting loop hartsrun origStatus hart rest =>
        rw [place] at serves
        rcases serves.2.2.2.2.2.2 with ⟨ready, _⟩ | ⟨waits, runs⟩
        · exact absurd ready notReady
        · obtain rfl := Phase.waiting.inj (waiting.symm.trans waits)
          exact .inr ⟨hart, List.mem_singleton_self _, runs⟩
    | returned loop hartsrun =>
        rw [place] at serves
        exact absurd serves.2.2 notReady
    | failed =>
        rw [place] at serves
        exact absurd serves notReady

/-! ## What a step leaves alone -/

/-- A runner waits for nothing but its own run event. -/
theorem Coherent.waits (coherent : session.Coherent hart)
    {awaited : List (Event ι)}
    (waiting : session.kernel.phase (.runner hart) = .waiting awaited) :
    awaited = [.run hart] ∧ session.Waits hart := by
  unfold Coherent at coherent
  cases place : session.point hart <;>
    simp only [place, waiting, reduceCtorEq, Phase.waiting.injEq, or_false,
      or_self, false_and] at coherent
  next =>
    obtain ⟨rfl, _⟩ := coherent
    exact ⟨rfl, place, waiting⟩

/-- Whether a hart has settled depends on its point and its phase. -/
theorem settled_congr (session : Session ι) {other : ι}
    (point : later.point other = session.point other)
    (phase : later.kernel.phase (.runner other) =
      session.kernel.phase (.runner other)) :
    later.Settled other ↔ session.Settled other := by
  unfold Settled Waits
  rw [point, phase]

theorem coherent_congr (session : Session ι) {other : ι}
    (point : later.point other = session.point other)
    (phase : later.kernel.phase (.runner other) =
      session.kernel.phase (.runner other))
    (status : later.status other = session.status other) :
    later.Coherent other ↔ session.Coherent other := by
  unfold Coherent
  rw [point, phase, status]

/-- The runner that has control has not settled. -/
theorem Invariant.not_settled (invariant : session.Invariant)
    (controls : session.kernel.current = some (.runner hart)) :
    ¬ session.Settled hart := by
  have ready := invariant.consistent _ controls
  rintro (waits | exited)
  · rw [waits.2] at ready
    cases ready
  · have coherent := invariant.coherent hart
    rw [Coherent, exited, ready] at coherent
    cases coherent.1

/-- A session in which the harts are as they were. -/
structure SameHarts (session later : Session ι) : Prop where
  status : later.status = session.status
  point : later.point = session.point
  phase : ∀ hart, later.kernel.phase (.runner hart) =
    session.kernel.phase (.runner hart)

namespace SameHarts

variable (same : session.SameHarts later)

include same

theorem coherent (coherent : ∀ hart, session.Coherent hart) (hart : ι) :
    later.Coherent hart :=
  (coherent_congr session (congrFun same.point hart) (same.phase hart)
    (congrFun same.status hart)).2 (coherent hart)

theorem confined {harts : List ι} (confined : session.Confined harts) :
    later.Confined harts :=
  fun hart outside => (settled_congr session (congrFun same.point hart)
    (same.phase hart)).2 (confined hart outside)

theorem untouched {harts : List ι} (untouched : session.Untouched harts) :
    later.Untouched harts := by
  unfold Untouched
  rw [same.status]
  exact untouched

end SameHarts

end Session

end Gdb

end RiscvVp
