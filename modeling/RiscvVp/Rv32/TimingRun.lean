import RiscvVp.Interaction.Visits
import RiscvVp.Rv32.Pacing
import RiscvVp.Rv32.TimingAsserts

/-!
# The timing model along a sequence of instructions

The bodies of the switch drive the timing model through its calls.  Whatever
the rest of the simulator replies, and wherever an instruction is cut short,
no assertion of the model fails and what the assertions are about holds.
-/

namespace RiscvVp

namespace Rv32

/-! ## Calls of the model that carries its assertions -/

namespace HiFive1PipelineTiming

variable {pipeline : HiFive1PipelineTiming}

theorem NotPending.accessRegister {free : BitVec 5}
    (notPending : pipeline.NotPending free) (regIdx : BitVec 5) :
    (pipeline.accessRegister regIdx).NotPending free := by
  rw [HiFive1PipelineTiming.accessRegister]
  split
  · exact notPending.advance _
  · exact notPending

end HiFive1PipelineTiming

/-- The register that a call announces a result for. -/
def PipelineEvent.result : PipelineEvent → Option (BitVec 5)
  | .doLoad _ rd _ _ => some rd
  | .doMult rd => some rd
  | .doDiv rd => some rd
  | .doCsr rd => some rd
  | _ => none

open HiFive1PipelineTiming in
/-- A call succeeds when no result is pending on its register. -/
theorem PipelineEvent.isSome_apply {pipeline : HiFive1PipelineTiming}
    (event : PipelineEvent)
    (free : ∀ rd, event.result = some rd → pipeline.NotPending rd) :
    (event.apply pipeline).isSome := by
  cases event with
  | accessRegister regIdx => rfl
  | reserveStore addrRange numCycles => rfl
  | doLoad addrRange rd latency positive =>
      rw [PipelineEvent.apply, HiFive1PipelineTiming.doLoad]
      split
      · exact isSome_addResultLatency ((free rd rfl).advance 5) _ _
      · exact isSome_addResultLatency (free rd rfl) _ _
  | doMult rd =>
      exact isSome_addResultLatency ((free rd rfl).reserveMult _ _) _ _
  | doDiv rd =>
      have drawn : NotPending rd
          { pipeline with randCalls := pipeline.randCalls + 1 } :=
        free rd rfl
      exact isSome_addResultLatency (drawn.reserveDiv _ _) _ _
  | doCsr rd => exact isSome_addResultLatency (free rd rfl) _ _

namespace Asserted

open Interaction

/-! ## An instruction and its registers -/

/-- The timing model in the course of an instruction, with the integer
registers that the instruction has read or written. -/
structure Usage where
  timing : PipelineTiming
  used : List (BitVec 5) := []
  /-- it has waited for a result of `x0` -/
  stalledByZero : Bool := false

/-- The integer registers that an action reads or writes. -/
def registersOf (index : BitVec 5) : Action → List (BitVec 5)
  | .reg regIdx => [regIdx]
  | .setReg regIdx _ => [regIdx]
  | .executeSyscall => syscallRegisters index
  | _ => []

/-- The call waits for a result of `x0`. -/
def stallsAtZero (timing : PipelineTiming) : PipelineEvent → Bool
  | .accessRegister regIdx => regIdx == 0 && timing.find 0
  | _ => false

/-- What an action makes of it; nothing when an assertion fails. -/
def Usage.after (index : BitVec 5) (usage : Usage) : Action → Option Usage
  | .pipeline event => do
      let timing ← usage.timing.apply event
      some { usage with
        timing := timing
        stalledByZero :=
          usage.stalledByZero || stallsAtZero usage.timing event }
  | action => some { usage with used := registersOf index action ++ usage.used }

/-- The monitor of the timing model: whenever the instruction does something,
the model is sound and its assertions hold. -/
def asserting (index : BitVec 5) : Monitor Action.Answer Usage where
  requires usage action :=
    usage.timing.Sound ∧ (usage.after index action).isSome
  allows _ _ _ := True
  next usage action _ := (usage.after index action).getD usage

/-- The timing model between the instructions of a sequence, all of them
admitted.  An instruction is run to some point of its body, where it may be
cut short by a trap, and accounts for one cycle. -/
inductive Execution (cfg : Config) (index : BitVec 5)
    (admits : PipelineTiming → Mapping → Instruction → Prop) :
    PipelineTiming → Prop
  | start (rand : Nat → Nat) : Execution cfg index admits { rand := rand }
  | instruction {timing later : PipelineTiming} {usage : Usage}
      (op : Mapping) (instr : Instruction)
      (before : Execution cfg index admits timing)
      (admitted : admits timing op instr)
      (visits : (execute cfg instr op).Visits (asserting index)
        { timing := timing } usage)
      (advances : usage.timing.advance 1 = some later) :
      Execution cfg index admits later

/-! ## Time passes -/

/-- Time has passed, and what was pending is complete or still is pending. -/
structure Elapses (before after : PipelineTiming) : Prop where
  total : before.numTotalCycles ≤ after.numTotalCycles
  pending : ∀ entry ∈ before.pendingRegisterLatencies,
    entry.latency ≤ after.numTotalCycles - before.numTotalCycles ∨
      ⟨entry.regIdx,
        entry.latency - (after.numTotalCycles - before.numTotalCycles)⟩ ∈
          after.pendingRegisterLatencies

namespace Elapses

theorem of_kept {before after : PipelineTiming}
    (total : after.numTotalCycles = before.numTotalCycles)
    (pending : ∀ entry ∈ before.pendingRegisterLatencies,
      entry ∈ after.pendingRegisterLatencies) : Elapses before after where
  total := Int.le_of_eq total.symm
  pending entry member := by
    right
    rw [total, Int.sub_self, Int.sub_zero]
    exact pending entry member

theorem refl (timing : PipelineTiming) : Elapses timing timing :=
  of_kept rfl fun _ member => member

theorem trans {first second third : PipelineTiming}
    (left : Elapses first second) (right : Elapses second third) :
    Elapses first third where
  total := Int.le_trans left.total right.total
  pending entry member := by
    have one := left.total
    have two := right.total
    rcases left.pending entry member with complete | waiting
    · left
      omega
    rcases right.pending _ waiting with complete | pending
    · left
      change entry.latency - (second.numTotalCycles - first.numTotalCycles) ≤
        third.numTotalCycles - second.numTotalCycles at complete
      omega
    · right
      convert pending using 2
      change _ = entry.latency -
        (second.numTotalCycles - first.numTotalCycles) -
          (third.numTotalCycles - second.numTotalCycles)
      omega

end Elapses

theorem mem_advanceAll {α : Type} {advance : α → Option (Option α)}
    {entries later : List α} {entry kept : α}
    (advances : advanceAll advance entries = some later)
    (member : entry ∈ entries) (keeps : advance entry = some (some kept)) :
    kept ∈ later := by
  induction entries generalizing later with
  | nil => cases member
  | cons head rest inductionHypothesis =>
      rw [advanceAll] at advances
      obtain ⟨first, one, advances⟩ := Option.bind_eq_some_iff.1 advances
      obtain ⟨others, two, advances⟩ := Option.bind_eq_some_iff.1 advances
      cases advances
      rcases List.mem_cons.1 member with rfl | tail
      · rw [keeps] at one
        cases one
        exact List.mem_append_left _ (List.mem_singleton_self kept)
      · exact List.mem_append_right _ (inductionHypothesis two tail)

namespace PipelineTiming

variable {timing later : PipelineTiming} {numCycles : Int}

/-- What an `advance` whose assertions hold has done. -/
theorem advance_cases (advances : timing.advance numCycles = some later) :
    0 < numCycles ∧
      later.numTotalCycles = timing.numTotalCycles + numCycles ∧
      advanceAll (RegisterLatency.advance numCycles)
        timing.pendingRegisterLatencies =
          some later.pendingRegisterLatencies := by
  rw [PipelineTiming.advance] at advances
  obtain ⟨_, positive, advances⟩ := Option.bind_eq_some_iff.1 advances
  obtain ⟨registers, one, advances⟩ := Option.bind_eq_some_iff.1 advances
  obtain ⟨mult, _, advances⟩ := Option.bind_eq_some_iff.1 advances
  obtain ⟨div, _, advances⟩ := Option.bind_eq_some_iff.1 advances
  obtain ⟨stores, _, advances⟩ := Option.bind_eq_some_iff.1 advances
  cases advances
  refine ⟨?_, rfl, one⟩
  rw [guard] at positive
  split at positive
  next holds => exact holds
  next => cases positive

theorem advance_elapses (advances : timing.advance numCycles = some later) :
    Elapses timing later := by
  obtain ⟨positive, total, registers⟩ := advance_cases advances
  refine ⟨by omega, fun entry member => ?_⟩
  by_cases complete : entry.latency ≤ numCycles
  · left
    omega
  · right
    have elapsed : later.numTotalCycles - timing.numTotalCycles =
        numCycles := by omega
    rw [elapsed]
    apply mem_advanceAll registers member
    rw [RegisterLatency.advance_of_pos _ (by omega), if_neg (by omega)]

theorem addResultLatency_elapses {regIdx : BitVec 5} {resultLatency : Int}
    (adds : timing.addResultLatency regIdx resultLatency = some later) :
    Elapses timing later := by
  rw [PipelineTiming.addResultLatency] at adds
  obtain ⟨_, _, adds⟩ := Option.bind_eq_some_iff.1 adds
  obtain ⟨_, _, adds⟩ := Option.bind_eq_some_iff.1 adds
  cases adds
  exact Elapses.of_kept rfl fun _ member => List.mem_append_left _ member

/-- The wait for a unit that may be in use. -/
theorem wait_elapses {busy : Bool} {latency : Int}
    (waits : (if busy then timing.stall latency else some timing) =
      some later) : Elapses timing later := by
  split at waits
  · exact advance_elapses waits
  · cases waits
    exact .refl timing

theorem reserveMult_elapses
    (reserves : timing.reserveMult numCycles = some later) :
    Elapses timing later := by
  obtain ⟨waited, waits, reserves⟩ := Option.bind_eq_some_iff.1 reserves
  obtain ⟨mult, _, reserves⟩ := Option.bind_eq_some_iff.1 reserves
  cases reserves
  exact (wait_elapses waits).trans (.of_kept rfl fun _ member => member)

theorem reserveDiv_elapses
    (reserves : timing.reserveDiv numCycles = some later) :
    Elapses timing later := by
  obtain ⟨waited, waits, reserves⟩ := Option.bind_eq_some_iff.1 reserves
  obtain ⟨div, _, reserves⟩ := Option.bind_eq_some_iff.1 reserves
  cases reserves
  exact (wait_elapses waits).trans (.of_kept rfl fun _ member => member)

theorem accessRegister_elapses {regIdx : BitVec 5}
    (accesses : timing.accessRegister regIdx = some later) :
    Elapses timing later := by
  rw [PipelineTiming.accessRegister] at accesses
  split at accesses
  · exact advance_elapses accesses
  · cases accesses
    exact .refl timing

/-- Every call lets time pass and loses nothing. -/
theorem apply_elapses {event : PipelineEvent}
    (applies : timing.apply event = some later) : Elapses timing later := by
  cases event with
  | accessRegister regIdx => exact accessRegister_elapses applies
  | reserveStore addrRange numCycles =>
      cases applies
      exact .of_kept rfl fun _ member => member
  | doLoad addrRange rd latency positive =>
      rw [PipelineTiming.apply, PipelineTiming.doLoad] at applies
      split at applies
      · obtain ⟨stalled, stalls, adds⟩ := Option.bind_eq_some_iff.1 applies
        exact (advance_elapses stalls).trans (addResultLatency_elapses adds)
      · exact addResultLatency_elapses applies
  | doMult rd =>
      obtain ⟨reserved, reserves, adds⟩ := Option.bind_eq_some_iff.1 applies
      exact (reserveMult_elapses reserves).trans (addResultLatency_elapses adds)
  | doDiv rd =>
      obtain ⟨reserved, reserves, adds⟩ := Option.bind_eq_some_iff.1 applies
      have drawn : Elapses timing
          { timing with randCalls := timing.randCalls + 1 } :=
        .of_kept rfl fun _ member => member
      exact (drawn.trans (reserveDiv_elapses reserves)).trans
        (addResultLatency_elapses adds)
  | doCsr rd => exact addResultLatency_elapses applies

/-- After the wait for a register its result is complete. -/
theorem accessRegister_waits {regIdx : BitVec 5}
    {entry : RegisterLatency} (sound : timing.Sound)
    (accesses : timing.accessRegister regIdx = some later)
    (member : entry ∈ timing.pendingRegisterLatencies)
    (named : entry.regIdx = regIdx) :
    entry.latency ≤ later.numTotalCycles - timing.numTotalCycles := by
  rw [PipelineTiming.accessRegister] at accesses
  split at accesses
  next found foundEntry =>
    have listed := List.mem_of_find?_eq_some foundEntry
    have same : found = entry :=
      List.inj_on_of_nodup_map sound.distinct listed member <| by
        rw [named]
        simpa using List.find?_some foundEntry
    have total := (advance_cases accesses).2.1
    rw [same] at total
    omega
  next missing =>
    have absent := List.find?_eq_none.1 missing entry member
    simp [named] at absent

end PipelineTiming

/-! ## A paced body -/

section Paced

variable {direct : List (BitVec 5)} {index : BitVec 5} {first : PipelineTiming}

/-- What the timing model of a paced body satisfies. -/
structure Keeps (direct : List (BitVec 5)) (first : PipelineTiming)
    (pace : Pace) (usage : Usage) : Prop where
  represents : ∃ pipeline, usage.timing.Represents pipeline ∧
    ∀ regIdx, pace.ready = some regIdx → pipeline.NotPending regIdx
  elapses : Elapses first usage.timing
  waited : ∀ entry ∈ first.pendingRegisterLatencies,
    entry.regIdx ∈ pace.waited →
      entry.latency ≤ usage.timing.numTotalCycles - first.numTotalCycles
  used : ∀ regIdx ∈ usage.used, pace.mayUse direct regIdx
  zero : first.find 0 = false →
    usage.stalledByZero = false ∧
      (pace.announced = false → usage.timing.find 0 = false)

theorem Keeps.begin {pipeline : HiFive1PipelineTiming}
    (represents : first.Represents pipeline) :
    Keeps direct first {} { timing := first } where
  represents := ⟨pipeline, represents, nofun⟩
  elapses := .refl first
  waited := nofun
  used := nofun
  zero free := ⟨rfl, fun _ => free⟩

variable {pace : Pace} {usage : Usage}

theorem Keeps.sound (keeps : Keeps direct first pace usage) :
    usage.timing.Sound := by
  obtain ⟨_, represents, _⟩ := keeps.represents
  exact represents.sound

/-- A call that is answered with a representable state. -/
theorem Keeps.pipeline (keeps : Keeps direct first pace usage)
    {event : PipelineEvent} {later : PipelineTiming} {next : Pace}
    (applies : usage.timing.apply event = some later)
    (represents : ∃ pipeline, later.Represents pipeline ∧
      ∀ regIdx, next.ready = some regIdx → pipeline.NotPending regIdx)
    (kept : ∀ regIdx ∈ pace.waited, regIdx ∈ next.waited)
    (waited : ∀ entry ∈ first.pendingRegisterLatencies,
      entry.regIdx ∈ next.waited → entry.regIdx ∉ pace.waited →
        entry.latency ≤ later.numTotalCycles - first.numTotalCycles)
    (zero : first.find 0 = false →
      stallsAtZero usage.timing event = false ∧
        (next.announced = false → later.find 0 = false)) :
    ∃ moved, usage.after index (.pipeline event) = some moved ∧
      Keeps direct first next moved := by
  have elapses := PipelineTiming.apply_elapses applies
  refine ⟨{ usage with
    timing := later
    stalledByZero := usage.stalledByZero || stallsAtZero usage.timing event },
    by simp [Usage.after, applies], ?_⟩
  constructor
  · exact represents
  · exact keeps.elapses.trans elapses
  · intro entry member named
    by_cases already : entry.regIdx ∈ pace.waited
    · have complete := keeps.waited entry member already
      have total := elapses.total
      dsimp only
      omega
    · exact waited entry member named already
  · intro regIdx used
    exact (keeps.used regIdx used).imp_left (kept regIdx)
  · intro free
    obtain ⟨unstalled, _⟩ := keeps.zero free
    obtain ⟨passes, remains⟩ := zero free
    exact ⟨by simp [unstalled, passes], remains⟩

/-- A wait. -/
theorem Keeps.access (keeps : Keeps direct first pace usage)
    (regIdx : BitVec 5) (early : pace.announced = false) :
    ∃ moved,
      usage.after index (.pipeline (.accessRegister regIdx)) = some moved ∧
        Keeps direct first
          (pace.after (.pipeline (.accessRegister regIdx))) moved := by
  obtain ⟨pipeline, represents, _⟩ := keeps.represents
  obtain ⟨later, accesses, corresponds⟩ := represents.accessRegister regIdx
  refine keeps.pipeline accesses
    ⟨_, corresponds, ?_⟩ (fun _ => List.mem_cons_of_mem _) ?_ ?_
  · intro ready same
    cases same
    exact HiFive1PipelineTiming.notPending_accessRegister regIdx pipeline
  · intro entry member named fresh
    have here : entry.regIdx = regIdx :=
      (List.mem_cons.1 named).resolve_right fresh
    rcases keeps.elapses.pending entry member with complete | pending
    · have total := (PipelineTiming.accessRegister_elapses accesses).total
      omega
    · have waits := PipelineTiming.accessRegister_waits represents.sound
        accesses pending here
      dsimp only at waits
      omega
  · intro free
    have absent := (keeps.zero free).2 early
    refine ⟨by rw [stallsAtZero, absent, Bool.and_false], fun _ => ?_⟩
    apply corresponds.find_eq_false
    exact (represents.notPending absent).accessRegister regIdx

/-- A call that waits for no register. -/
theorem Keeps.call (keeps : Keeps direct first pace usage)
    {event : PipelineEvent} {next : Pace}
    (free : ∀ rd, event.result = some rd → pace.ready = some rd)
    (waited : next.waited = pace.waited) (ready : next.ready = none)
    (quiet : stallsAtZero usage.timing event = false)
    (zero : next.announced = false →
      ∀ later, usage.timing.apply event = some later →
        later.find 0 = usage.timing.find 0 ∧ pace.announced = false) :
    ∃ moved, usage.after index (.pipeline event) = some moved ∧
      Keeps direct first next moved := by
  obtain ⟨pipeline, represents, notPending⟩ := keeps.represents
  obtain ⟨after, applies⟩ := Option.isSome_iff_exists.1 <|
    event.isSome_apply fun rd announced => notPending rd (free rd announced)
  obtain ⟨later, moves, corresponds⟩ := represents.apply event applies
  refine keeps.pipeline moves ⟨after, corresponds, ?_⟩ ?_ ?_ ?_
  · rw [ready]
    exact nofun
  · rw [waited]
    exact fun _ => id
  · rw [waited]
    exact fun _ _ named fresh => absurd named fresh
  · intro free
    refine ⟨quiet, fun early => ?_⟩
    obtain ⟨same, before⟩ := zero early later moves
    rw [same]
    exact (keeps.zero free).2 before

/-- An action that is no call of the timing model. -/
theorem Keeps.uses (keeps : Keeps direct first pace usage)
    {registers : List (BitVec 5)} {next : Pace}
    (used : ∀ regIdx ∈ registers, pace.mayUse direct regIdx)
    (waited : next.waited = pace.waited)
    (ready : next.ready = pace.ready ∨ next.ready = none)
    (announced : next.announced = pace.announced) :
    Keeps direct first next
      { usage with used := registers ++ usage.used } where
  represents := by
    obtain ⟨pipeline, represents, notPending⟩ := keeps.represents
    refine ⟨pipeline, represents, fun regIdx named => ?_⟩
    rcases ready with same | none
    · exact notPending regIdx (same.symm.trans named)
    · rw [none] at named
      cases named
  elapses := keeps.elapses
  waited := by
    rw [waited]
    exact keeps.waited
  used regIdx member := by
    rw [Pace.mayUse, waited]
    rcases List.mem_append.1 member with here | before
    · exact used regIdx here
    · exact keeps.used regIdx before
  zero := by
    rw [announced]
    exact keeps.zero

/-- Every permitted action keeps the timing model sound. -/
theorem Keeps.step (keeps : Keeps direct first pace usage) (action : Action)
    (permitted : pace.permits direct index action) :
    ∃ moved, usage.after index action = some moved ∧
      Keeps direct first (pace.after action) moved := by
  have noRegisters : ∀ regIdx ∈ ([] : List (BitVec 5)),
      pace.mayUse direct regIdx := nofun
  cases action with
  | pipeline event =>
      cases event with
      | accessRegister regIdx => exact keeps.access regIdx permitted
      | reserveStore addrRange numCycles =>
          refine keeps.call nofun rfl rfl rfl fun early later moves => ?_
          cases moves
          exact ⟨rfl, early⟩
      | doLoad addrRange rd latency positive =>
          refine keeps.call ?_ rfl rfl rfl nofun
          rintro _ ⟨⟩
          exact permitted
      | doMult rd =>
          refine keeps.call ?_ rfl rfl rfl nofun
          rintro _ ⟨⟩
          exact permitted
      | doDiv rd =>
          refine keeps.call ?_ rfl rfl rfl nofun
          rintro _ ⟨⟩
          exact permitted
      | doCsr rd =>
          refine keeps.call ?_ rfl rfl rfl nofun
          rintro _ ⟨⟩
          exact permitted
  | reg regIdx =>
      refine ⟨_, rfl, keeps.uses ?_ rfl (.inr rfl) rfl⟩
      intro used member
      cases List.mem_singleton.1 member
      exact permitted
  | setReg regIdx value =>
      refine ⟨_, rfl, keeps.uses ?_ rfl (.inl rfl) rfl⟩
      intro used member
      cases List.mem_singleton.1 member
      exact permitted
  | executeSyscall =>
      exact ⟨_, rfl, keeps.uses permitted rfl (.inr rfl) rfl⟩
  | setLrScCounter value =>
      exact ⟨_, rfl, keeps.uses noRegisters rfl (.inl rfl) rfl⟩
  | _ => exact ⟨_, rfl, keeps.uses noRegisters rfl (.inr rfl) rfl⟩

/-- A paced body guides the timing model past its assertions. -/
theorem pacing_guides : Program.Guides (pacing direct index)
    (asserting index) (Keeps direct first) := by
  intro pace usage action keeps permitted
  obtain ⟨moved, moves, kept⟩ := keeps.step action permitted
  refine ⟨⟨keeps.sound, by rw [moves]; rfl⟩, fun _ _ => ⟨trivial, ?_⟩⟩
  change Keeps direct first (pace.after action)
    ((usage.after index action).getD usage)
  rw [moves]
  exact kept

end Paced

/-! ## Sequences of instructions -/

section Sequences

variable {cfg : Config} {index : BitVec 5}
  {admits : PipelineTiming → Mapping → Instruction → Prop}
  {timing : PipelineTiming}

/-- What the timing model satisfies wherever an instruction is cut short. -/
theorem visits_keeps (timed : cfg.pipelineTiming = true) (op : Mapping)
    (instr : Instruction) {pipeline : HiFive1PipelineTiming}
    (represents : timing.Represents pipeline) {usage : Usage}
    (visits : (execute cfg instr op).Visits (asserting index)
      { timing := timing } usage) :
    ∃ pace, Keeps (directRegisters cfg index instr op) timing pace usage :=
  visits.guided pacing_guides (Keeps.begin represents)
    (execute_paced cfg index instr timed op)

theorem Represents.initial (rand : Nat → Nat) :
    PipelineTiming.Represents { rand := rand } { rand := rand } where
  registers := rfl
  mult := ⟨rfl, nofun, fun _ => Int.le_refl 0⟩
  div := ⟨rfl, nofun, fun _ => Int.le_refl 0⟩
  stores := rfl
  numTotalCycles := rfl
  rand := rfl
  randCalls := rfl

/-- The timing model between instructions is one that carries its
assertions. -/
theorem Execution.represents (timed : cfg.pipelineTiming = true)
    (execution : Execution cfg index admits timing) :
    ∃ pipeline, timing.Represents pipeline := by
  induction execution with
  | start rand => exact ⟨_, Represents.initial rand⟩
  | instruction op instr before admitted visits advances
      inductionHypothesis =>
      obtain ⟨_, represents⟩ := inductionHypothesis
      obtain ⟨_, keeps⟩ := visits_keeps timed op instr represents visits
      obtain ⟨pipeline, represents, _⟩ := keeps.represents
      obtain ⟨later, moves, corresponds⟩ :=
        represents.advance (show 0 < 1 by decide)
      cases advances.symm.trans moves
      exact ⟨_, corresponds⟩

/-- No assertion fails in an instruction and in the cycle after it, wherever
the instruction is cut short. -/
structure Passes (cfg : Config) (index : BitVec 5) (timing : PipelineTiming)
    (op : Mapping) (instr : Instruction) : Prop where
  body : (execute cfg instr op).Under (asserting index) { timing := timing }
    fun usage _ => usage.timing.Sound
  cycle : ∀ usage, (execute cfg instr op).Visits (asserting index)
    { timing := timing } usage →
      usage.timing.Sound ∧ (usage.timing.advance 1).isSome

/-- Along every sequence of instructions the timing model is sound, and every
assertion holds. -/
theorem execution_sound (timed : cfg.pipelineTiming = true)
    (execution : Execution cfg index (fun _ _ _ => True) timing) :
    timing.Sound ∧ ∀ op instr, Passes cfg index timing op instr := by
  obtain ⟨pipeline, represents⟩ := execution.represents timed
  refine ⟨represents.sound, fun op instr => ⟨?_, fun usage visits => ?_⟩⟩
  · have paced := execute_paced cfg index instr timed op
    refine (paced.guided pacing_guides (Keeps.begin represents)).mono ?_
    rintro usage _ ⟨_, keeps⟩
    exact keeps.sound
  · obtain ⟨_, keeps⟩ := visits_keeps timed op instr represents visits
    obtain ⟨_, corresponds, _⟩ := keeps.represents
    obtain ⟨later, moves, _⟩ := corresponds.advance (show 0 < 1 by decide)
    exact ⟨keeps.sound, Option.isSome_iff_exists.2 ⟨later, moves⟩⟩

end Sequences

def timedConfig : Config where
  pipelineTiming := true
  softfloat := default
  sys := false
  mmu := false
  dmiRanges := []
  instrMemoryProxy := none

/-- `lw x5, 0(x1)` -/
def loading : Instruction := 0x0000A283

/-- One cycle after the load its result takes another one. -/
def loaded : PipelineTiming where
  pendingRegisterLatencies := [⟨5, 1⟩]
  numTotalCycles := 1

theorem loading_visits :
    (execute timedConfig loading .lw).Visits (asserting 17) { timing := {} }
      { timing := { pendingRegisterLatencies := [⟨5, 2⟩] }
        used := [5, 1] } :=
  .call () trivial <| .call (0 : BitVec 32) trivial <|
    .call (0 : BitVec 32) trivial <| .call () trivial <| .call () trivial <|
      .call () trivial <| .here _ _

theorem execution_loaded
    {admits : PipelineTiming → Mapping → Instruction → Prop}
    (admitted : admits {} .lw loading) :
    Execution timedConfig 17 admits loaded :=
  .instruction .lw loading (.start fun _ => 0) admitted loading_visits rfl

/-- `mul x6, x5, x7` -/
def multiplying : Instruction := 0x02728333

/-- The multiplication has waited for the load, and its result is pending in the
multiplier. -/
def multiplied : PipelineTiming where
  pendingRegisterLatencies := [⟨6, 6⟩]
  mult := ⟨true, 5⟩
  numTotalCycles := 3

theorem execution_multiplied :
    Execution timedConfig 17 (fun _ _ _ => True) multiplied :=
  .instruction .mul multiplying (execution_loaded trivial) trivial
    (.call (0x1000 : BitVec 32) trivial <| .call () trivial <|
      .call (0 : BitVec 32) trivial <| .call () trivial <|
        .call (0 : BitVec 32) trivial <| .call () trivial <|
          .call () trivial <| .call () trivial <| .here _ _) rfl

/-- After the load and the multiplication. -/
theorem execution_sound_multiplied :
    PipelineTiming.Sound multiplied ∧
      ∀ op instr, Passes timedConfig 17 multiplied op instr :=
  execution_sound rfl execution_multiplied

end Asserted

end Rv32

end RiscvVp
