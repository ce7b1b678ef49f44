import Mathlib
import RiscvVp.Interaction.Noting
import RiscvVp.Interaction.Triple
import RiscvVp.Rv32.Platform
import RiscvVp.Rv32.Stalls

/-!
# The local time of a run

At the end of a step the local time is moved on by what the counter of the pipeline
model has gained since it was noted last.  The counter and the note are not
initialised: the local time follows the pipeline model exactly if they happen to
agree, and the counter starts at zero exactly if it happens to be zero.
-/

namespace RiscvVp

namespace Rv32

open Interaction
open HiFive1PipelineTiming (Stalled)

/-! ## The ledger of a run -/

/-- The cycles that the quantum keeper is asked to add. -/
def noteAdvance (notes : List (BitVec 64)) :
    (request : Call) → Reply request → List (BitVec 64)
  | .needSync advance, _ => notes ++ [advance]
  | _, _ => notes

/-- A step: the cycles that it adds to the local time, and the pipeline model before
and after it. -/
structure Entry where
  /-- a breakpoint stops the step before it executes anything -/
  stopped : Bool
  added : List (BitVec 64)
  before : HiFive1PipelineTiming
  after : HiFive1PipelineTiming

namespace Entry

/-- The cycles that the pipeline model counts in the step. -/
def counted (entry : Entry) : ℕ :=
  (entry.after.numTotalCycles - entry.before.numTotalCycles).toNat

/-- One cycle and all stalls, or nothing at a breakpoint. -/
def OneAndStalls (entry : Entry) : Prop :=
  if entry.stopped then entry.after = entry.before
  else ∃ cycles pipeline, Stalled entry.before cycles pipeline ∧
    entry.after = pipeline.advance 1

end Entry

/-- The local time that is added, in cycles. -/
def totalAdded (entries : List Entry) : ℕ :=
  (entries.map fun entry => (entry.added.map BitVec.toNat).sum).sum

def totalCounted (entries : List Entry) : ℕ := (entries.map Entry.counted).sum

/-- A step stops at a breakpoint. -/
def Hart.stops (hart : Hart) : Bool := hart.debugMode && hart.breakpoints hart.pc

/-- What the constructor and `init` leave behind: the counter of the pipeline model
and the count that is noted have whatever values their memory had. -/
inductive Constructed : Hart → Prop
  | init {hart : Hart} (numTotalCycles lastCycles : BitVec 64) (rand : ℕ → ℕ)
      (boots : Boots hart) :
      Constructed { hart with
        pipeline := { numTotalCycles := numTotalCycles, rand := rand }
        lastCycles := lastCycles }

section Run

variable {G : Type} (cfg : Config) (surroundings : Surroundings Reply G)

/-- A run, with an entry for each step. -/
inductive TimedRun (first : Hart) : List Entry → G → Hart → Prop
  | boot (world : G) (constructed : Constructed first) : TimedRun first [] world first
  | interrupted {entries : List Entry} {world : G} {hart : Hart}
      (event : InterruptEvent) (run : TimedRun first entries world hart) :
      TimedRun first entries world (hart.interrupt event)
  | step {entries : List Entry} {world later : G} {hart after : Hart}
      {event : StepEvent} {added : List (BitVec 64)}
      (run : TimedRun first entries world hart)
      (steps : (runStep cfg hart).ReachesIn (surroundings.noting noteAdvance)
        (world, []) (later, added) (.done event after)) :
      TimedRun first (entries ++ [⟨hart.stops, added, hart.pipeline, after.pipeline⟩])
        later after

end Run

/-! ## One step -/

section Step

variable {G : Type} {cfg : Config} {surroundings : Surroundings Reply G} {α : Type}
  {first : Hart} {notes : List (BitVec 64)}

theorem noteAdvance_of_timeless (request : Call) (timeless : Timeless request)
    (notes : List (BitVec 64)) (reply : Reply request) :
    noteAdvance notes request reply = notes := by
  cases request with
  | needSync => exact timeless.elim
  | _ => rfl

/-- Only the pipeline model has been called since `first`, and nothing added. -/
def StillCounting (first : Hart) (world : G × List (BitVec 64)) (hart : Hart) : Prop :=
  world.2 = [] ∧ OnlyStalled first hart

theorem stillCounting_achieves (machine : HartM α) [framed : Machine.Framed stalling machine]
    [asking : Machine.Asking Timeless machine] :
    Machine.Achieves (surroundings.noting noteAdvance) (StillCounting first) machine
      fun _ => StillCounting first := by
  rintro ⟨world, notes⟩ hart ⟨rfl, stalled⟩
  have silent : (machine hart).Under (surroundings.noting noteAdvance).monitor (world, [])
      fun last result => last.2 = [] ∧ True :=
    Program.Under.noting noteAdvance_of_timeless (asking.asking hart) world []
  refine (silent.and_all (framed.framed hart trivial)).mono ?_
  rintro last outcome ⟨⟨empty, -⟩, kept⟩ value after rfl
  exact ⟨empty, stalled.trans ((Frame.post_done _ _ _ _).1 kept)⟩

/-- The end of a step has moved the local time on. -/
structure MovedOn (first : Hart) (added : List (BitVec 64)) (after : Hart) : Prop where
  added : added = [after.pipeline.numTotalCycles - first.lastCycles]
  noted : after.lastCycles = after.pipeline.numTotalCycles
  stalls : ∃ cycles pipeline, Stalled first.pipeline cycles pipeline ∧
    after.pipeline = pipeline.advance 1

theorem interrupts_kept (interrupts : List InterruptEvent) (hart : Hart) :
    (interrupts.foldl Hart.interrupt hart).pipeline = hart.pipeline ∧
      (interrupts.foldl Hart.interrupt hart).lastCycles = hart.lastCycles := by
  induction interrupts generalizing hart with
  | nil => exact ⟨rfl, rfl⟩
  | cons event rest inductionHypothesis =>
      obtain ⟨pipeline, lastCycles⟩ := inductionHypothesis (hart.interrupt event)
      rw [List.foldl_cons, pipeline, lastCycles, Hart.interrupt_eq]
      exact ⟨rfl, rfl⟩

/-- The local time is moved on by what has been counted since the last note. -/
theorem advanceTime_achieves (timed : cfg.pipelineTiming = true) (newCycles : ℕ) :
    Machine.Achieves (surroundings.noting noteAdvance) (StillCounting first)
      (advanceTime cfg newCycles) fun advance world hart =>
        world.2 = [] ∧ MovedOn first [advance] hart := by
  rintro ⟨world, notes⟩ hart ⟨rfl, lastCycles, cycles, stalled⟩
  rw [advanceTime, if_pos timed]
  simp only [Machine.bind_apply, Machine.modifies_apply, Machine.reads_apply,
    Machine.andThen_done, Program.ret_bind, Machine.pure_apply]
  rintro value after ⟨⟩
  refine ⟨rfl, ?_, rfl, cycles, hart.pipeline, stalled, rfl⟩
  rw [← lastCycles]
  rfl

/-- The request adds what has been moved on, and nothing after it does. -/
theorem synchronise_achieves (advance : BitVec 64) :
    Machine.Achieves (surroundings.noting noteAdvance)
      (fun world hart => world.2 = [] ∧ MovedOn first [advance] hart)
      (synchronise advance) fun _ world hart => MovedOn first world.2 hart := by
  have asked : Machine.Achieves (surroundings.noting noteAdvance)
      (fun world hart => world.2 = [] ∧ MovedOn first [advance] hart)
      (call (.needSync advance) : HartM Bool)
      fun _ world hart => MovedOn first world.2 hart := by
    apply Machine.Achieves.request
    rintro ⟨world, notes⟩ hart reply ⟨rfl, moved⟩ -
    exact moved
  have synced : Machine.Achieves (surroundings.noting noteAdvance)
      (fun world hart => MovedOn first world.2 hart)
      (call .sync : HartM (List InterruptEvent))
      fun _ world hart => MovedOn first world.2 hart :=
    Machine.Achieves.request fun _ _ _ moved _ => moved
  have delivered (interrupts : List InterruptEvent) :
      Machine.Achieves (surroundings.noting noteAdvance)
        (fun world hart => MovedOn first world.2 hart) (deliver interrupts)
        fun _ world hart => MovedOn first world.2 hart := by
    apply Machine.Achieves.modifies
    rintro world hart ⟨added, noted, stalls⟩
    obtain ⟨pipeline, lastCycles⟩ := interrupts_kept interrupts hart
    exact ⟨by rw [pipeline, added], by rw [pipeline, lastCycles, noted],
      by rwa [pipeline]⟩
  have looked : Machine.Achieves (surroundings.noting noteAdvance)
      (fun world hart => MovedOn first world.2 hart)
      (Machine.reads Hart.lrScCounter : HartM Int)
      fun _ world hart => MovedOn first world.2 hart :=
    Machine.Achieves.reads fun _ _ moved => moved
  unfold synchronise
  refine asked.bind fun needSync => looked.bind fun lrScCounter => ?_
  exact Machine.Achieves.ite (fun _ => synced.bind delivered)
    fun _ => Machine.Achieves.pure fun _ _ moved => moved

theorem finishStep_achieves (timed : cfg.pipelineTiming = true) :
    Machine.Achieves (surroundings.noting noteAdvance) (StillCounting first)
      (finishStep cfg) fun _ world hart => MovedOn first world.2 hart := by
  have silent {update : Hart → Hart}
      (pipeline : ∀ hart, (update hart).pipeline = hart.pipeline)
      (lastCycles : ∀ hart, (update hart).lastCycles = hart.lastCycles) :
      Machine.Achieves (surroundings.noting noteAdvance) (StillCounting first)
        (Machine.modifies update : HartM Unit) fun _ => StillCounting first :=
    have := stalling_modifies pipeline lastCycles
    stillCounting_achieves _
  have ticked : Machine.Framed stalling tickLrScCounter := by
    have counted : Machine.Framed stalling (Machine.modifies fun hart =>
        { hart with lrScCounter := hart.lrScCounter - 1 } : HartM Unit) :=
      stalling_modifies (fun _ => rfl) fun _ => rfl
    unfold tickLrScCounter
    infer_instance
  unfold finishStep performanceAndSyncUpdate
  refine Machine.Achieves.bind (silent (fun _ => rfl) fun _ => rfl) fun _ => ?_
  refine Machine.Achieves.bind (silent (fun hart => ?_) fun hart => ?_) fun _ => ?_
  · split <;> rfl
  · split <;> rfl
  refine (stillCounting_achieves (Machine.reads Hart.op)).bind fun op => ?_
  refine Machine.Achieves.bind (silent (fun hart => ?_) fun hart => ?_) fun _ => ?_
  · unfold countInstruction
    split <;> rfl
  · unfold countInstruction
    split <;> rfl
  refine (stillCounting_achieves tickLrScCounter).bind fun _ => ?_
  refine Machine.Achieves.bind (silent (fun hart => ?_) fun hart => ?_) fun _ => ?_
  · unfold countCycles
    split <;> rfl
  · unfold countCycles
    split <;> rfl
  exact (advanceTime_achieves timed _).bind synchronise_achieves

/-- A step stops at a breakpoint, or it moves the local time on. -/
theorem runStep_movesOn (timed : cfg.pipelineTiming = true) (world : G) (hart : Hart) :
    (runStep cfg hart).Under (surroundings.noting noteAdvance).monitor (world, [])
      fun last outcome => ∀ event after, outcome = .done event after →
        if hart.stops then
          last.2 = [] ∧ after.pipeline = hart.pipeline ∧
            after.lastCycles = hart.lastCycles
        else MovedOn hart last.2 after := by
  have start : StillCounting hart (world, []) hart := ⟨rfl, .of_kept rfl rfl⟩
  unfold runStep
  rw [Machine.under_bind, Machine.reads_apply, Program.under_ret]
  dsimp only [id]
  cases zero : hart.regs 0 == 0 with
  | false =>
      rw [Machine.assert_false, Machine.under_bind, Machine.abort_apply,
        Program.under_ret]
      exact fun _ _ contrary => nomatch contrary
  | true =>
      rw [Machine.assert_true, Machine.under_bind, Machine.pure_apply,
        Program.under_ret]
      dsimp only
      rw [Machine.ite_apply]
      by_cases stops : hart.stops = true
      · have atBreakpoint : (hart.debugMode && hart.breakpoints hart.pc) = true := stops
        simp only [if_pos stops, if_pos atBreakpoint]
        rintro event after ⟨⟩
        exact ⟨rfl, rfl, rfl⟩
      · have executes : ¬(hart.debugMode && hart.breakpoints hart.pc) = true := stops
        simp only [if_neg stops, if_neg executes]
        have noted : Machine.Achieves (surroundings.noting noteAdvance)
            (StillCounting hart)
            (Machine.modifies fun hart => { hart with lastPc := hart.pc } : HartM Unit)
            fun _ => StillCounting hart :=
          have : Machine.Framed stalling (Machine.modifies fun hart : Hart =>
              { hart with lastPc := hart.pc } : HartM Unit) :=
            stalling_modifies (fun _ => rfl) fun _ => rfl
          stillCounting_achieves _
        refine noted.bind (fun _ => ?_) (world, []) hart start
        refine (stillCounting_achieves (takeStep cfg)).bind fun event => ?_
        refine (finishStep_achieves timed).bind fun _ => ?_
        exact Machine.Achieves.pure fun _ _ moved => moved

end Step

/-! ## Runs -/

section Run

variable {G : Type} {cfg : Config} {surroundings : Surroundings Reply G} {first : Hart}
  {entries : List Entry} {world : G} {hart : Hart}

theorem totalAdded_concat (entry : Entry) :
    totalAdded (entries ++ [entry]) =
      totalAdded entries + (entry.added.map BitVec.toNat).sum := by
  simp [totalAdded]

theorem totalCounted_concat (entry : Entry) :
    totalCounted (entries ++ [entry]) = totalCounted entries + entry.counted := by
  simp [totalCounted]

/-- The totals so far, from the counter and the note at the start. -/
structure Balanced (first : Hart) (entries : List Entry) (hart : Hart) : Prop where
  oneAndStalls : ∀ entry ∈ entries, entry.OneAndStalls
  stopped : (∀ entry ∈ entries, entry.stopped = true) →
    totalAdded entries = 0 ∧ totalCounted entries = 0 ∧
      hart.pipeline.numTotalCycles = first.pipeline.numTotalCycles ∧
      hart.lastCycles = first.lastCycles
  moved : (∃ entry ∈ entries, entry.stopped = false) →
    hart.lastCycles = hart.pipeline.numTotalCycles ∧
      (totalAdded entries = totalCounted entries ↔
        first.lastCycles = first.pipeline.numTotalCycles)

theorem balanced_boot (first : Hart) : Balanced first [] first where
  oneAndStalls _ member := absurd member List.not_mem_nil
  stopped _ := ⟨rfl, rfl, rfl, rfl⟩
  moved executed := by
    obtain ⟨_, member, -⟩ := executed
    exact absurd member List.not_mem_nil

namespace Balanced

variable {after : Hart} (balanced : Balanced first entries hart)

include balanced

/-- A step that stops at a breakpoint changes neither total. -/
theorem stop {entry : Entry} (stopped : entry.stopped = true) (added : entry.added = [])
    (before : entry.before = hart.pipeline) (same : entry.after = hart.pipeline)
    (pipeline : after.pipeline = hart.pipeline)
    (lastCycles : after.lastCycles = hart.lastCycles) :
    Balanced first (entries ++ [entry]) after := by
  have none : entry.counted = 0 := by
    rw [Entry.counted, before, same, BitVec.sub_self]
    rfl
  have sumAdded : totalAdded (entries ++ [entry]) = totalAdded entries := by
    rw [totalAdded_concat, added]
    rfl
  have sumCounted : totalCounted (entries ++ [entry]) = totalCounted entries := by
    rw [totalCounted_concat, none, Nat.add_zero]
  refine ⟨fun other member => ?_, fun all => ?_, fun some => ?_⟩
  · rcases List.mem_append.1 member with earlier | last
    · exact balanced.oneAndStalls other earlier
    · rw [List.mem_singleton.1 last, Entry.OneAndStalls, if_pos stopped, same, before]
  · rw [sumAdded, sumCounted, pipeline, lastCycles]
    exact balanced.stopped fun other member => all other (List.mem_append_left _ member)
  · rw [sumAdded, sumCounted, pipeline, lastCycles]
    obtain ⟨other, member, executed⟩ := some
    rcases List.mem_append.1 member with earlier | last
    · exact balanced.moved ⟨other, earlier, executed⟩
    · rw [List.mem_singleton.1 last, stopped] at executed
      cases executed

/-- A step that executes adds what has been counted since the note. -/
theorem execute {entry : Entry} (executed : entry.stopped = false)
    (before : entry.before = hart.pipeline) (same : entry.after = after.pipeline)
    (moved : MovedOn hart entry.added after) :
    Balanced first (entries ++ [entry]) after := by
  have sumAdded : totalAdded (entries ++ [entry]) = totalAdded entries +
      (after.pipeline.numTotalCycles - hart.lastCycles).toNat := by
    rw [totalAdded_concat, moved.added, List.map_singleton, List.sum_singleton]
  have sumCounted : totalCounted (entries ++ [entry]) = totalCounted entries +
      (after.pipeline.numTotalCycles - hart.pipeline.numTotalCycles).toNat := by
    rw [totalCounted_concat, Entry.counted, before, same]
  refine ⟨fun other member => ?_, fun all => ?_, fun _ => ⟨moved.noted, ?_⟩⟩
  · rcases List.mem_append.1 member with earlier | last
    · exact balanced.oneAndStalls other earlier
    · rw [List.mem_singleton.1 last, Entry.OneAndStalls, executed, if_neg (by decide),
        before, same]
      exact moved.stalls
  · have stopped := all entry (List.mem_append_right _ (List.mem_singleton.2 rfl))
    rw [executed] at stopped
    cases stopped
  rw [sumAdded, sumCounted]
  by_cases all : ∀ other ∈ entries, other.stopped = true
  · -- The first step that executes: the note is the one the hart was made with.
    obtain ⟨noneAdded, noneCounted, counter, note⟩ := balanced.stopped all
    rw [noneAdded, noneCounted, Nat.zero_add, Nat.zero_add, BitVec.toNat_inj, counter,
      note]
    exact BitVec.sub_right_inj _
  · obtain ⟨other, member, running⟩ : ∃ other ∈ entries, other.stopped = false := by
      simpa using all
    obtain ⟨noted, sums⟩ := balanced.moved ⟨other, member, running⟩
    rw [noted, Nat.add_right_cancel_iff]
    exact sums

end Balanced

theorem balanced_of_run (timed : cfg.pipelineTiming = true)
    (run : TimedRun cfg surroundings first entries world hart) :
    Balanced first entries hart := by
  induction run with
  | boot world constructed => exact balanced_boot first
  | interrupted event run balanced =>
      obtain ⟨oneAndStalls, stopped, moved⟩ := balanced
      rw [Hart.interrupt_eq]
      exact ⟨oneAndStalls, stopped, moved⟩
  | @step entries world later hart after event added run steps balanced =>
      have ends := (Program.under_iff_reachesIn _ _ _).1
        (runStep_movesOn timed world hart) _ _ steps event after rfl
      cases stops : hart.stops with
      | true =>
          simp only [if_pos stops] at ends
          obtain ⟨noneAdded, pipeline, lastCycles⟩ := ends
          exact balanced.stop rfl noneAdded rfl pipeline pipeline lastCycles
      | false =>
          simp only [stops, Bool.false_eq_true, if_false] at ends
          exact balanced.execute rfl rfl rfl ends

/-- The counter starts at zero, and the local time is the cycles that the pipeline
model has counted. -/
structure KeepsTime (first : Hart) (entries : List Entry) : Prop where
  starts : first.pipeline.numTotalCycles = 0
  total : totalAdded entries = totalCounted entries

/-- Every step counts one cycle and its stalls.  The local time is what is counted
exactly if the counter and the note happened to be zero; before the first step that
executes only the counter matters. -/
theorem keepsTime_iff (timed : cfg.pipelineTiming = true)
    (run : TimedRun cfg surroundings first entries world hart) :
    (∀ entry ∈ entries, entry.OneAndStalls) ∧
      (KeepsTime first entries ↔
        first.pipeline.numTotalCycles = 0 ∧
          ((∃ entry ∈ entries, entry.stopped = false) → first.lastCycles = 0)) := by
  have balanced := balanced_of_run timed run
  refine ⟨balanced.oneAndStalls, ?_⟩
  constructor
  · rintro ⟨starts, total⟩
    refine ⟨starts, fun executed => ?_⟩
    rw [(balanced.moved executed).2.1 total, starts]
  · rintro ⟨starts, note⟩
    refine ⟨starts, ?_⟩
    by_cases executed : ∃ entry ∈ entries, entry.stopped = false
    · rw [(balanced.moved executed).2, note executed, starts]
    · have all : ∀ entry ∈ entries, entry.stopped = true := by simpa using executed
      obtain ⟨noneAdded, noneCounted, -⟩ := balanced.stopped all
      rw [noneAdded, noneCounted]

end Run

/-! ## A platform -/

namespace Platform

/-- A build with the pipeline model. -/
def timedConfig : Config := { config with pipelineTiming := true }

/-- A hart that is made where the memory of the counter and of the note held these
values. -/
def timedHart (numTotalCycles lastCycles : BitVec 64) : Hart :=
  { Hart.reset 0 false 0 0x1000 with
    pipeline := { numTotalCycles := numTotalCycles }
    lastCycles := lastCycles }

theorem constructed_timedHart (numTotalCycles lastCycles : BitVec 64) :
    Constructed (timedHart numTotalCycles lastCycles) :=
  .init numTotalCycles lastCycles (fun _ => 0) <|
    .reset 0 false 0 0x1000 false false fun _ => false

/-- The entries of some steps, if none of them ends the simulator. -/
def timedSteps : ℕ → Hart → Platform → Option (List Entry)
  | 0, _, _ => some []
  | count + 1, hart, platform =>
      match (runStep timedConfig hart).run (Program.noted handle noteAdvance)
        (platform, []) with
      | (.done _ after, (later, added)) =>
          (timedSteps count after later).map
            (⟨hart.stops, added, hart.pipeline, after.pipeline⟩ :: ·)
      | _ => none

theorem exists_of_timedSteps {count : ℕ} {first hart : Hart} {platform : Platform}
    {earlier entries : List Entry}
    (run : TimedRun timedConfig surroundings first earlier platform hart)
    (taken : timedSteps count hart platform = some entries) :
    ∃ later after,
      TimedRun timedConfig surroundings first (earlier ++ entries) later after := by
  induction count generalizing hart platform earlier entries with
  | zero =>
      cases taken
      rw [List.append_nil]
      exact ⟨platform, hart, run⟩
  | succ count inductionHypothesis =>
      unfold timedSteps at taken
      split at taken
      next event after later added ran =>
        obtain ⟨rest, restTaken, rfl⟩ := Option.map_eq_some_iff.1 taken
        have next := inductionHypothesis
          (.step run (Program.reachesIn_noting_of ran)) restTaken
        rwa [List.append_assoc, List.singleton_append] at next
      next => cases taken

/-- What the first steps of a program add, and what they count. -/
def profile (count : ℕ) (words : List (BitVec 32)) (hart : Hart) :
    Option (List (List (BitVec 64) × ℕ)) :=
  (timedSteps count hart (ofWords words)).map
    (·.map fun entry => (entry.added, entry.counted))

theorem exists_of_profile {count : ℕ} {words : List (BitVec 32)} {hart : Hart}
    {counts : List (List (BitVec 64) × ℕ)} (constructed : Constructed hart)
    (profiled : profile count words hart = some counts) :
    ∃ entries later after,
      TimedRun timedConfig surroundings hart entries later after ∧
        entries.map (fun entry => (entry.added, entry.counted)) = counts := by
  obtain ⟨entries, taken, rfl⟩ := Option.map_eq_some_iff.1 profiled
  obtain ⟨later, after, run⟩ :=
    exists_of_timedSteps (.boot (ofWords words) constructed) taken
  exact ⟨entries, later, after, run, rfl⟩

/-- `nop`, `mul t0, t1, t2` and `addi s0, t0, 0`, which waits for the product. -/
def waitForProduct : List (BitVec 32) := [0x00000013, 0x027302B3, 0x00028413]

/-- Three steps of a hart whose memory held zeros, the last with a stall of six
cycles. -/
theorem keepsTime_waitForProduct : ∃ entries,
    entries.map (fun entry => (entry.added, entry.counted)) =
        [([1], 1), ([1], 1), ([7], 7)] ∧
      KeepsTime (timedHart 0 0) entries := by
  obtain ⟨entries, later, after, run, counts⟩ := exists_of_profile
    (constructed_timedHart 0 0)
    (show profile 3 waitForProduct _ = some [([1], 1), ([1], 1), ([7], 7)] by
      decide +kernel)
  exact ⟨entries, counts, (keepsTime_iff rfl run).2.2 ⟨rfl, fun _ => rfl⟩⟩

end Platform

/-- When the note happens to be one, the first cycle is not added. -/
theorem not_keepsTime :
    ¬∀ (cfg : Config) (surroundings : Surroundings Reply Platform) (first : Hart)
      (entries : List Entry) (world : Platform) (hart : Hart),
      cfg.pipelineTiming = true → TimedRun cfg surroundings first entries world hart →
        KeepsTime first entries := by
  intro keeps
  obtain ⟨entries, later, after, run, counts⟩ :=
    Platform.exists_of_profile (Platform.constructed_timedHart 0 1)
      (show Platform.profile 1 [0x13] _ = some [([0], 1)] by decide +kernel)
  have total := (keeps _ _ _ _ _ _ rfl run).total
  obtain ⟨entry, rfl, entryCounts⟩ := List.map_eq_singleton_iff.1 counts
  obtain ⟨added, counted⟩ := Prod.mk.inj entryCounts
  simp [totalAdded, totalCounted, added, counted] at total

end Rv32

end RiscvVp
