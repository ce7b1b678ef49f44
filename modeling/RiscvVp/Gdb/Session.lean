import RiscvVp.Core.Trap
import RiscvVp.Gdb.Protocol
import RiscvVp.Interaction.Cooperative

/-!
# The debugger and its harts

`GDBServer::vCont` with `run_threads`, and the `GDBServerRunner` of each hart.
They are processes that hand over by immediate notifications and share the
status of the harts.

What a hart executes is left open.  Whether an instruction is at a breakpoint,
waits, or finds `shall_exit` set is chosen along the run.
-/

namespace RiscvVp

namespace Gdb

open Cooperative

variable {ι : Type} [DecidableEq ι]

/-! ## State -/

inductive Process (ι : Type) : Type
  | server
  | runner (hart : ι)
  deriving DecidableEq

inductive Event (ι : Type) : Type
  /-- `asyncEvent` -/
  | packet
  | run (hart : ι)
  | stop (hart : ι)
  deriving DecidableEq

/-- Where a runner is; `single` tells `run_step` from `run`. -/
inductive Point : Type
  /-- `sc_core::wait(run_event)` -/
  | parked
  /-- before `run_step` -/
  | stepping (single : Bool)
  /-- in `exec_step` -/
  | executing (single : Bool)
  /-- in `performance_and_sync_update` -/
  | updating (single : Bool)
  /-- after `run_step` -/
  | stepped (single : Bool)
  /-- after `run` or after a single step; `run` ends with a wait -/
  | stopping
  | exited
  deriving DecidableEq

inductive StopReason : Type
  /-- `"05"` -/
  | trap
  /-- `"03"` -/
  | quit
  deriving DecidableEq

/-- The variables of the loop in `vCont`: the actions from the one at hand on,
and what the loop keeps of those before it. -/
structure Loop (ι : Type) where
  pending : List Vcont
  matched : List ι
  stopped : Option (StopReason × ι)
  deriving DecidableEq

/-- Where the server is. -/
inductive Serving (ι : Type) : Type
  /-- `sc_core::wait(asyncEvent)` -/
  | listening
  /-- at the head of the loop in `vCont` -/
  | acting (loop : Loop ι)
  /-- at the head of `run_threads` -/
  | invoking (loop : Loop ι) (hartsrun : List ι) (single : Bool)
  /-- `sc_core::wait(allharts)` -/
  | gathering (loop : Loop ι) (hartsrun : List ι)
  /-- at the harts whose status has not been looked at -/
  | inspecting (loop : Loop ι) (hartsrun : List ι)
      (origStatus : List (ι × CoreExecStatus)) (rest : List ι)
  /-- `sc_core::wait(stopev)` -/
  | awaiting (loop : Loop ι) (hartsrun : List ι)
      (origStatus : List (ι × CoreExecStatus)) (hart : ι) (rest : List ι)
  /-- `run_threads` has returned -/
  | returned (loop : Loop ι) (hartsrun : List ι)
  /-- an exception or an assertion has ended the simulation -/
  | failed
  deriving DecidableEq

inductive Reply (ι : Type) : Type
  | e01
  | stopped (reason : StopReason) (hart : ι)
  deriving DecidableEq

structure Session (ι : Type) where
  kernel : Kernel (Process ι) (Event ι)
  singleRun : Bool
  status : ι → CoreExecStatus
  point : ι → Point
  server : Serving ι
  /-- the latest first -/
  replies : List (Reply ι)

/-- `get_threads`; it throws if there is no such thread. -/
def getThreads (harts : List ι) (id : ℤ) : Option (List ι) :=
  let id := if id = threadAny then 1 else id
  if id = threadAll then some harts
  else if id < 1 then none
  else harts[(id - 1).toNat]?.map fun hart => [hart]

namespace Session

/-- Everybody waits. -/
def boot : Session ι where
  kernel := {
    current := none
    phase
      | .server => .waiting [.packet]
      | .runner hart => .waiting [.run hart] }
  singleRun := false
  status _ := .runnable
  point _ := .parked
  server := .listening
  replies := []

/-! ## The server -/

def listen (session : Session ι) : Session ι :=
  { session with
    kernel := session.kernel.suspend .server (.waiting [.packet])
    server := .listening }

def reply (message : Reply ι) (session : Session ι) : Session ι :=
  { session with replies := message :: session.replies }

/-- One action of `vCont`, up to the call of `run_threads`; or what comes after
the loop. -/
def act (harts : List ι) (loop : Loop ι) (session : Session ι) : Session ι :=
  match loop.pending with
  | [] =>
      match loop.stopped with
      | none => { session with server := .failed }
      | some (reason, hart) => (session.reply (.stopped reason hart)).listen
  | vcont :: _ =>
      if vcont.action ≠ ascii 's' ∧ vcont.action ≠ ascii 'c' then
        { session with server := .failed }
      else
        match getThreads harts vcont.thread.tid with
        | none => (session.reply .e01).listen
        | some threads =>
            { session with
              server := .invoking loop
                (threads.filter fun hart => hart ∉ loop.matched)
                (vcont.action = ascii 's') }

/-- Notify the harts that are run, and wait for the first that stops. -/
def launch (hartsrun : List ι) (kernel : Kernel (Process ι) (Event ι)) :
    Kernel (Process ι) (Event ι) :=
  (kernel.notify (hartsrun.map .run)).suspend .server
    (.waiting (hartsrun.map .stop))

/-- The first part of `run_threads`. -/
def invoke (loop : Loop ι) (hartsrun : List ι) (single : Bool)
    (session : Session ι) : Session ι :=
  if hartsrun = [] then { session with server := .returned loop hartsrun }
  else
    { session with
      kernel := launch hartsrun session.kernel
      singleRun := single
      server := .gathering loop hartsrun }

/-- Stop a hart that still runs. -/
def inspect (loop : Loop ι) (hartsrun : List ι)
    (origStatus : List (ι × CoreExecStatus)) (hart : ι) (rest : List ι)
    (session : Session ι) : Session ι :=
  let recorded := origStatus ++ [(hart, session.status hart)]
  if session.status hart ≠ .runnable then
    { session with server := .inspecting loop hartsrun recorded rest }
  else
    { session with
      kernel := session.kernel.suspend .server (.waiting [.stop hart])
      status := Function.update session.status hart .hitBreakpoint
      server := .awaiting loop hartsrun recorded hart rest }

/-- The statuses after those of a list have been set. -/
def restored (origStatus : List (ι × CoreExecStatus))
    (status : ι → CoreExecStatus) : ι → CoreExecStatus :=
  origStatus.foldl (fun status entry =>
    Function.update status entry.1 entry.2) status

/-- The loop of `vCont` over the harts that have been run: what it reports and
what it leaves of their statuses. -/
def report (hartsrun : List ι) (stopped : Option (StopReason × ι))
    (status : ι → CoreExecStatus) :
    Option (StopReason × ι) × (ι → CoreExecStatus) :=
  hartsrun.foldl (fun reported hart =>
    match reported.2 hart with
    | .hitBreakpoint =>
        (some (.trap, hart), Function.update reported.2 hart .runnable)
    | .terminated => (some (.quit, hart), reported.2)
    | .runnable => reported) (stopped, status)

/-- The rest of an action. -/
def conclude (harts : List ι) (loop : Loop ι) (hartsrun : List ι)
    (session : Session ι) : Session ι :=
  let reported := report hartsrun loop.stopped session.status
  let tid := (loop.pending.head?.map fun vcont => vcont.thread.tid).getD 0
  let matched :=
    if tid > 0 then ((getThreads harts tid).getD []) ++ loop.matched
    else loop.matched
  { session with
    status := reported.2
    server := .acting ⟨loop.pending.tail, matched, reported.1⟩ }

/-- The server goes on. -/
def serve (harts : List ι) (session : Session ι) : Option (Session ι) :=
  match session.server with
  | .acting loop => some (session.act harts loop)
  | .invoking loop hartsrun single =>
      some (session.invoke loop hartsrun single)
  | .gathering loop hartsrun =>
      some { session with server := .inspecting loop hartsrun [] hartsrun }
  | .inspecting loop hartsrun origStatus [] =>
      some { session with
        status := restored origStatus session.status
        server := .returned loop hartsrun }
  | .inspecting loop hartsrun origStatus (hart :: rest) =>
      some (session.inspect loop hartsrun origStatus hart rest)
  | .awaiting loop hartsrun origStatus _ rest =>
      some { session with
        server := .inspecting loop hartsrun origStatus rest }
  | .returned loop hartsrun => some (session.conclude harts loop hartsrun)
  | .listening | .failed => none

/-! ## The runners -/

/-- What an instruction does with its hart. -/
inductive Choice : Type
  /-- a breakpoint at the program counter -/
  | breakpoint
  /-- a wait -/
  | delay
  /-- the end of `exec_step`, and `shall_exit` -/
  | complete (shallExit : Bool)
  /-- none of these -/
  | proceed
  deriving DecidableEq

def moveTo (hart : ι) (point : Point) (session : Session ι) : Session ι :=
  { session with point := Function.update session.point hart point }

def setStatus (hart : ι) (status : CoreExecStatus) (session : Session ι) :
    Session ι :=
  { session with status := Function.update session.status hart status }

def delay (hart : ι) (session : Session ι) : Session ι :=
  { session with kernel := session.kernel.suspend (.runner hart) .delayed }

/-- `stop_event->notify()`, and what the runner waits for then. -/
def halt (hart : ι) (phase : Phase (Event ι)) (point : Point)
    (session : Session ι) : Session ι :=
  { session with
    kernel := (session.kernel.notify [.stop hart]).suspend (.runner hart) phase
    point := Function.update session.point hart point }

/-- The end of the loop of `GDBServerRunner::run`. -/
def stop (hart : ι) (session : Session ι) : Session ι :=
  if session.status hart = .terminated then
    session.halt hart .finished .exited
  else session.halt hart (.waiting [.run hart]) .parked

/-- A runner goes on. -/
def advance (hart : ι) (session : Session ι) : Choice → Option (Session ι)
  | .proceed =>
      match session.point hart with
      | .parked => some (session.moveTo hart (.stepping session.singleRun))
      | .stepping single => some (session.moveTo hart (.executing single))
      | .updating single => some (session.moveTo hart (.stepped single))
      | .stepped true =>
          if session.status hart = .runnable then
            some ((session.setStatus hart .hitBreakpoint).moveTo hart .stopping)
          else some (session.moveTo hart .stopping)
      | .stepped false =>
          if session.status hart = .runnable then
            some (session.moveTo hart (.stepping false))
          else some ((session.delay hart).moveTo hart .stopping)
      | .stopping => some (session.stop hart)
      | .executing _ | .exited => none
  | .breakpoint =>
      match session.point hart with
      | .stepping single =>
          some ((session.setStatus hart .hitBreakpoint).moveTo hart
            (.stepped single))
      | _ => none
  | .delay =>
      match session.point hart with
      | .executing _ => some (session.delay hart)
      | .updating single =>
          some ((session.delay hart).moveTo hart (.stepped single))
      | _ => none
  | .complete shallExit =>
      match session.point hart with
      | .executing single =>
          if shallExit then
            some ((session.setStatus hart .terminated).moveTo hart
              (.updating single))
          else some (session.moveTo hart (.updating single))
      | _ => none

/-! ## Steps -/

inductive Action (ι : Type) : Type
  /-- a `vCont` packet arrives -/
  | deliver (actions : List Vcont)
  /-- a process takes control -/
  | dispatch (process : Process ι)
  /-- a wait of a hart is over -/
  | elapse (hart : ι)
  /-- the server goes on -/
  | serve
  /-- the runner that has control goes on -/
  | advance (choice : Choice)
  deriving DecidableEq

/-- One step, if the action is possible.  When the simulation has ended, none
is. -/
def step (harts : List ι) (session : Session ι) (action : Action ι) :
    Option (Session ι) :=
  if session.server = .failed then none
  else match action with
    | .deliver actions =>
        if session.server = .listening then
          some { session with
            kernel := session.kernel.notify [.packet]
            server := .acting ⟨actions, [], none⟩ }
        else none
    | .dispatch process =>
        (session.kernel.dispatch process).map fun kernel =>
          { session with kernel := kernel }
    | .elapse hart =>
        (session.kernel.elapse (.runner hart)).map fun kernel =>
          { session with kernel := kernel }
    | .serve =>
        if session.kernel.current = some .server then session.serve harts
        else none
    | .advance choice =>
        match session.kernel.current with
        | some (.runner hart) => session.advance hart choice
        | _ => none

/-- A session from the start. -/
inductive Run (harts : List ι) : Session ι → Prop
  | boot : Run harts boot
  | step {session later : Session ι} {action : Action ι}
      (run : Run harts session)
      (stepped : session.step harts action = some later) : Run harts later

end Session

end Gdb

end RiscvVp
