import RiscvVp.Rv32.Action

/-!
# The timing model with its assertions

The model as the source writes it: latencies are integers, the units and the
lists may hold anything, and every assertion is checked where it stands.  An
operation answers `none` when an assertion fails.  The cycle count is an
integer, which the other model wraps at 64 bits.

`Represents` relates it to the model whose structures carry what the
assertions are about.  Every operation of that model is simulated here, with
no assertion failing.
-/

namespace RiscvVp

namespace Rv32

namespace Asserted

open Timing (Range)

/-! ## Reservations -/

structure StoreReservation where
  range : Range
  latency : Int

/-- Nothing is kept of a reservation whose `advance` is false. -/
def StoreReservation.advance (numCycles : Int)
    (reservation : StoreReservation) : Option (Option StoreReservation) := do
  guard (reservation.latency > 0)
  let advanced :=
    { reservation with latency := reservation.latency - numCycles }
  if advanced.latency ≤ 0 then some none else some (some advanced)

structure RegisterLatency where
  regIdx : BitVec 5
  latency : Int

def RegisterLatency.advance (numCycles : Int) (entry : RegisterLatency) :
    Option (Option RegisterLatency) := do
  guard (entry.latency > 0)
  let advanced := { entry with latency := entry.latency - numCycles }
  if advanced.latency ≤ 0 then some none else some (some advanced)

structure OperationReservation where
  acquired : Bool := false
  latency : Int := 0

namespace OperationReservation

def acquire (numCycles : Int) (unit : OperationReservation) :
    Option OperationReservation := do
  guard (numCycles > 0)
  guard (unit.acquired = false)
  some { acquired := true, latency := numCycles }

def release (unit : OperationReservation) : Option OperationReservation := do
  guard (unit.latency ≤ 0)
  guard (unit.acquired = true)
  some { unit with acquired := false }

def advance (numCycles : Int) (unit : OperationReservation) :
    Option OperationReservation :=
  if !unit.acquired then some unit
  else do
    guard (unit.latency > 0)
    let advanced := { unit with latency := unit.latency - numCycles }
    if advanced.latency ≤ 0 then advanced.release else some advanced

end OperationReservation

/-- The loop that erases the entries whose `advance` is false. -/
def advanceAll {α : Type} (advance : α → Option (Option α)) :
    List α → Option (List α)
  | [] => some []
  | entry :: rest => do
      let kept ← advance entry
      let later ← advanceAll advance rest
      some (kept.toList ++ later)

/-! ## The pipeline -/

/-- `HiFive1PipelineTiming` -/
structure PipelineTiming where
  pendingRegisterLatencies : List RegisterLatency := []
  mult : OperationReservation := {}
  div : OperationReservation := {}
  pendingStoreReservations : List StoreReservation := []
  numTotalCycles : Int := 0
  rand : Nat → Nat := fun _ => 0
  randCalls : Nat := 0

namespace PipelineTiming

def advance (numCycles : Int) (timing : PipelineTiming) :
    Option PipelineTiming := do
  guard (numCycles > 0)
  let registers ← advanceAll (RegisterLatency.advance numCycles)
    timing.pendingRegisterLatencies
  let mult ← timing.mult.advance numCycles
  let div ← timing.div.advance numCycles
  let stores ← advanceAll (StoreReservation.advance numCycles)
    timing.pendingStoreReservations
  some { timing with
    pendingRegisterLatencies := registers
    mult := mult
    div := div
    pendingStoreReservations := stores
    numTotalCycles := timing.numTotalCycles + numCycles }

def stall (numCycles : Int) (timing : PipelineTiming) : Option PipelineTiming :=
  timing.advance numCycles

def accessRegister (regIdx : BitVec 5) (timing : PipelineTiming) :
    Option PipelineTiming :=
  match timing.pendingRegisterLatencies.find? (·.regIdx == regIdx) with
  | some entry => timing.stall entry.latency
  | none => some timing

/-- `_find` -/
def find (regIdx : BitVec 5) (timing : PipelineTiming) : Bool :=
  timing.pendingRegisterLatencies.any (·.regIdx == regIdx)

def addResultLatency (regIdx : BitVec 5) (resultLatency : Int)
    (timing : PipelineTiming) : Option PipelineTiming := do
  guard (timing.find regIdx = false)
  guard (resultLatency > 0)
  some { timing with
    pendingRegisterLatencies :=
      timing.pendingRegisterLatencies ++ [⟨regIdx, resultLatency⟩] }

def reserveMult (numCycles : Int) (timing : PipelineTiming) :
    Option PipelineTiming := do
  let waited ←
    (if timing.mult.acquired then timing.stall timing.mult.latency
      else some timing : Option PipelineTiming)
  let mult ← waited.mult.acquire numCycles
  some { waited with mult := mult }

def reserveDiv (numCycles : Int) (timing : PipelineTiming) :
    Option PipelineTiming := do
  let waited ←
    (if timing.div.acquired then timing.stall timing.div.latency
      else some timing : Option PipelineTiming)
  let div ← waited.div.acquire numCycles
  some { waited with div := div }

/-- `get_mult_result_latency` -/
def multResultLatency : Int := 5 + 1

def doMult (resultRegIdx : BitVec 5) (timing : PipelineTiming) :
    Option PipelineTiming := do
  let reserved ← timing.reserveMult multResultLatency
  reserved.addResultLatency resultRegIdx (multResultLatency + 1)

/-- `get_div_result_latency` -/
def divResultLatency (drawn : Nat) : Int := ↑(drawn % 5) + 6

def doDiv (resultRegIdx : BitVec 5) (timing : PipelineTiming) :
    Option PipelineTiming := do
  let numCycles := divResultLatency (timing.rand timing.randCalls)
  let drawn := { timing with randCalls := timing.randCalls + 1 }
  let reserved ← drawn.reserveDiv numCycles
  reserved.addResultLatency resultRegIdx numCycles

def doCsr (resultRegIdx : BitVec 5) (timing : PipelineTiming) :
    Option PipelineTiming :=
  timing.addResultLatency resultRegIdx 5

def reserveStore (addrRange : Range) (numCycles : Int)
    (timing : PipelineTiming) : PipelineTiming :=
  { timing with
    pendingStoreReservations :=
      timing.pendingStoreReservations ++ [⟨addrRange, numCycles + 1⟩] }

def hasStoreReservation (addrs : Range) (timing : PipelineTiming) : Bool :=
  timing.pendingStoreReservations.any fun reservation =>
    reservation.range.overlaps addrs

def doLoad (addrRange : Range) (rd : BitVec 5) (latency : Int)
    (timing : PipelineTiming) : Option PipelineTiming :=
  if timing.hasStoreReservation addrRange then do
    let stalled ← timing.stall 5
    let extra : Int := if addrRange.size < 4 then 0 + 2 else 0
    stalled.addResultLatency rd (latency + extra)
  else timing.addResultLatency rd (latency + 0)

/-- What the model makes of a call; nothing when an assertion fails. -/
def apply (timing : PipelineTiming) : PipelineEvent → Option PipelineTiming
  | .accessRegister regIdx => timing.accessRegister regIdx
  | .reserveStore addrRange numCycles =>
      some (timing.reserveStore addrRange numCycles)
  | .doLoad addrRange rd latency _ => timing.doLoad addrRange rd latency
  | .doMult rd => timing.doMult rd
  | .doDiv rd => timing.doDiv rd
  | .doCsr rd => timing.doCsr rd

/-! ## What holds of it -/

/-- Each register is pending at most once, nothing is pending that is
complete, and the units are acquired while they run. -/
structure Sound (timing : PipelineTiming) : Prop where
  distinct :
    (timing.pendingRegisterLatencies.map RegisterLatency.regIdx).Nodup
  registers : ∀ entry ∈ timing.pendingRegisterLatencies, 0 < entry.latency
  stores : ∀ reservation ∈ timing.pendingStoreReservations,
    0 < reservation.latency
  mult : timing.mult.acquired = true ↔ 0 < timing.mult.latency
  div : timing.div.acquired = true ↔ 0 < timing.div.latency

end PipelineTiming

/-! ## The model that carries its assertions -/

namespace StoreReservation

def of (reservation : Timing.StoreReservation) : StoreReservation :=
  ⟨reservation.range, reservation.latency⟩

theorem advance_of_pos (numCycles : Int) {reservation : StoreReservation}
    (positive : 0 < reservation.latency) :
    reservation.advance numCycles = some
      (if reservation.latency - numCycles ≤ 0 then none
      else some { reservation with
        latency := reservation.latency - numCycles }) := by
  simp only [advance, gt_iff_lt, positive, guard, if_true]
  split <;> rfl

theorem advance_of (numCycles : Nat)
    (reservation : Timing.StoreReservation) :
    (of reservation).advance numCycles =
      some ((reservation.advance numCycles).map of) := by
  rw [advance_of_pos _ (Int.natCast_pos.2 reservation.positive),
    Timing.StoreReservation.advance]
  by_cases left : numCycles < reservation.latency
  · have same : (reservation.latency - numCycles : Int) =
        (reservation.latency - numCycles : Nat) := by omega
    rw [dif_pos left, if_neg (by simp only [of]; omega)]
    simp only [of, same, Option.map_some]
  · rw [dif_neg left, if_pos (by simp only [of]; omega), Option.map_none]

end StoreReservation

namespace RegisterLatency

def of (entry : Timing.RegisterLatency) : RegisterLatency :=
  ⟨entry.regIdx, entry.latency⟩

theorem advance_of_pos (numCycles : Int) {entry : RegisterLatency}
    (positive : 0 < entry.latency) :
    entry.advance numCycles = some
      (if entry.latency - numCycles ≤ 0 then none
      else some { entry with
        latency := entry.latency - numCycles }) := by
  simp only [advance, gt_iff_lt, positive, guard, if_true]
  split <;> rfl

theorem advance_of (numCycles : Nat)
    (entry : Timing.RegisterLatency) :
    (of entry).advance numCycles =
      some ((entry.advance numCycles).map of) := by
  rw [advance_of_pos _ (Int.natCast_pos.2 entry.positive),
    Timing.RegisterLatency.advance]
  by_cases left : numCycles < entry.latency
  · have same : (entry.latency - numCycles : Int) =
        (entry.latency - numCycles : Nat) := by omega
    rw [dif_pos left, if_neg (by simp only [of]; omega)]
    simp only [of, same, Option.map_some]
  · rw [dif_neg left, if_pos (by simp only [of]; omega), Option.map_none]

end RegisterLatency

theorem advanceAll_map {α β : Type} {advance : α → Option (Option α)}
    {of : β → α} {carried : β → Option β}
    (advances : ∀ entry, advance (of entry) = some ((carried entry).map of))
    (entries : List β) :
    advanceAll advance (entries.map of) =
      some ((entries.filterMap carried).map of) := by
  induction entries with
  | nil => rfl
  | cons entry rest inductionHypothesis =>
      rw [List.map_cons, advanceAll, advances, inductionHypothesis]
      cases kept : carried entry with
      | none => rw [List.filterMap_cons_none kept]; rfl
      | some later => rw [List.filterMap_cons_some kept]; rfl

namespace OperationReservation

/-- A released unit has no cycles left; how many it went over does not
matter. -/
structure Represents (unit : OperationReservation)
    (carried : Timing.OperationReservation) : Prop where
  acquired : unit.acquired = carried.acquired
  latency : carried.acquired = true → unit.latency = carried.latency
  released : carried.acquired = false → unit.latency ≤ 0

variable {unit : OperationReservation}
  {carried : Timing.OperationReservation}

/-- A unit in use, with the assertions of its release. -/
theorem advance_of_acquired (numCycles : Int) (busy : unit.acquired = true)
    (positive : 0 < unit.latency) :
    unit.advance numCycles = some
      { acquired := decide (0 < unit.latency - numCycles)
        latency := unit.latency - numCycles } := by
  by_cases complete : unit.latency - numCycles ≤ 0
  · simp [OperationReservation.advance, busy, positive, guard, complete,
      release]
    omega
  · simp [OperationReservation.advance, busy, positive, guard, complete]
    omega

theorem Represents.acquired_iff (represents : unit.Represents carried) :
    unit.acquired = true ↔ 0 < unit.latency := by
  rw [represents.acquired]
  constructor
  · intro running
    rw [represents.latency running]
    exact Int.natCast_pos.2 (carried.running running)
  · intro positive
    apply Bool.of_not_eq_false
    intro idle
    exact absurd (represents.released idle) (Int.not_le.2 positive)

theorem Represents.advance (represents : unit.Represents carried)
    (numCycles : Nat) :
    ∃ advanced, unit.advance numCycles = some advanced ∧
      advanced.Represents (carried.advance numCycles) := by
  cases running : carried.acquired with
  | false =>
      have idle : unit.acquired = false := by
        rw [represents.acquired, running]
      refine ⟨unit, by simp [OperationReservation.advance, idle], ?_⟩
      have kept : carried.advance numCycles = {} := by
        simp [Timing.OperationReservation.advance, running]
      rw [kept]
      exact ⟨idle, nofun, fun _ => represents.released running⟩
  | true =>
      have busy : unit.acquired = true := by
        rw [represents.acquired, running]
      have same := represents.latency running
      have positive := carried.running running
      refine ⟨_, advance_of_acquired _ busy (by omega), ?_⟩
      by_cases left : numCycles < carried.latency
      · have remains : 0 < unit.latency - numCycles := by omega
        rw [Timing.OperationReservation.advance, dif_pos ⟨running, left⟩]
        refine ⟨decide_eq_true remains, fun _ => ?_, nofun⟩
        simp only [same]
        omega
      · have complete : ¬ 0 < unit.latency - numCycles := by omega
        rw [Timing.OperationReservation.advance, dif_neg (left ·.2)]
        exact ⟨decide_eq_false complete, nofun, fun _ => Int.not_lt.1 complete⟩

/-- A unit that is not in use can be acquired. -/
theorem Represents.acquire (represents : unit.Represents carried)
    (idle : carried.acquired = false) {numCycles : Nat}
    (positive : 0 < numCycles) :
    ∃ acquired, unit.acquire numCycles = some acquired ∧
      acquired.Represents (.acquire numCycles positive) := by
  refine ⟨⟨true, numCycles⟩, ?_, rfl, fun _ => rfl, nofun⟩
  simp [OperationReservation.acquire, represents.acquired, idle, positive]

/-- Waiting for a unit releases it. -/
theorem advance_latency (carried : Timing.OperationReservation) :
    (carried.advance carried.latency).acquired = false := by
  simp [Timing.OperationReservation.advance]

end OperationReservation

namespace PipelineTiming

structure Represents (timing : PipelineTiming)
    (pipeline : HiFive1PipelineTiming) : Prop where
  registers : timing.pendingRegisterLatencies =
    pipeline.pendingRegisterLatencies.map .of
  mult : timing.mult.Represents pipeline.mult
  div : timing.div.Represents pipeline.div
  stores : timing.pendingStoreReservations =
    pipeline.pendingStoreReservations.map .of
  numTotalCycles :
    BitVec.ofInt 64 timing.numTotalCycles = pipeline.numTotalCycles
  rand : timing.rand = pipeline.rand
  randCalls : timing.randCalls = pipeline.randCalls

/-- No assertion fails, and the new states correspond. -/
def Reaches (answer : Option PipelineTiming)
    (pipeline : HiFive1PipelineTiming) : Prop :=
  ∃ timing, answer = some timing ∧ timing.Represents pipeline

namespace Represents

variable {timing : PipelineTiming} {pipeline : HiFive1PipelineTiming}
  (represents : timing.Represents pipeline)

include represents

theorem sound : timing.Sound where
  distinct := by
    rw [represents.registers, List.map_map]
    exact pipeline.distinct
  registers := by
    rw [represents.registers]
    intro entry member
    obtain ⟨carried, _, rfl⟩ := List.mem_map.1 member
    exact Int.natCast_pos.2 carried.positive
  stores := by
    rw [represents.stores]
    intro reservation member
    obtain ⟨carried, _, rfl⟩ := List.mem_map.1 member
    exact Int.natCast_pos.2 carried.positive
  mult := represents.mult.acquired_iff
  div := represents.div.acquired_iff

theorem advance {numCycles : Nat} (positive : 0 < numCycles) :
    Reaches (timing.advance numCycles) (pipeline.advance numCycles) := by
  obtain ⟨mult, multAdvances, multRepresents⟩ :=
    represents.mult.advance numCycles
  obtain ⟨div, divAdvances, divRepresents⟩ := represents.div.advance numCycles
  have registers := advanceAll_map (RegisterLatency.advance_of numCycles)
    pipeline.pendingRegisterLatencies
  have stores := advanceAll_map (StoreReservation.advance_of numCycles)
    pipeline.pendingStoreReservations
  refine ⟨⟨_, mult, div, _, timing.numTotalCycles + numCycles, _, _⟩, ?_,
    rfl, multRepresents, divRepresents, rfl, ?_, represents.rand,
    represents.randCalls⟩
  · rw [PipelineTiming.advance, represents.registers, represents.stores,
      registers, multAdvances, divAdvances, stores]
    simp [guard, positive]
    exact ⟨rfl, rfl⟩
  · rw [BitVec.ofInt_add, represents.numTotalCycles, BitVec.ofInt_natCast]
    rfl

theorem accessRegister (regIdx : BitVec 5) :
    Reaches (timing.accessRegister regIdx)
      (pipeline.accessRegister regIdx) := by
  rw [PipelineTiming.accessRegister, HiFive1PipelineTiming.accessRegister,
    represents.registers, List.find?_map]
  change Reaches (match Option.map RegisterLatency.of
    (pipeline.pendingRegisterLatencies.find? (·.regIdx == regIdx)) with
    | some entry => timing.stall entry.latency
    | none => some timing) _
  cases pipeline.pendingRegisterLatencies.find? (·.regIdx == regIdx) with
  | none => exact ⟨timing, rfl, represents⟩
  | some entry => exact represents.advance entry.positive

theorem find_eq_false {regIdx : BitVec 5}
    (free : pipeline.NotPending regIdx) : timing.find regIdx = false := by
  rw [PipelineTiming.find, represents.registers, List.any_eq_false]
  intro entry member
  obtain ⟨carried, listed, rfl⟩ := List.mem_map.1 member
  intro same
  apply free
  rw [List.mem_map]
  exact ⟨carried, listed, beq_iff_eq.1 same⟩

theorem notPending {regIdx : BitVec 5}
    (free : timing.find regIdx = false) : pipeline.NotPending regIdx := by
  rw [PipelineTiming.find, represents.registers, List.any_eq_false] at free
  intro pending
  obtain ⟨entry, member, named⟩ := List.mem_map.1 pending
  exact free _ (List.mem_map_of_mem member) (beq_iff_eq.2 named)

theorem addResultLatency {regIdx : BitVec 5}
    {after : HiFive1PipelineTiming} {resultLatency : Nat}
    {positive : 0 < resultLatency}
    (adds : pipeline.addResultLatency regIdx resultLatency positive =
      some after) :
    Reaches (timing.addResultLatency regIdx resultLatency) after := by
  rw [HiFive1PipelineTiming.addResultLatency] at adds
  split at adds
  next free =>
    cases adds
    refine ⟨{ timing with
      pendingRegisterLatencies :=
        timing.pendingRegisterLatencies ++ [⟨regIdx, resultLatency⟩] }, ?_,
      ?_, represents.mult, represents.div, represents.stores,
      represents.numTotalCycles, represents.rand, represents.randCalls⟩
    · simp [PipelineTiming.addResultLatency, guard,
        represents.find_eq_false free, positive]
    · simp [represents.registers, RegisterLatency.of]
  next => cases adds

/-- The wait for a unit that may be in use. -/
theorem wait {unit : OperationReservation}
    {carried : Timing.OperationReservation} (same : unit.Represents carried) :
    Reaches (if unit.acquired then timing.stall unit.latency else some timing)
      (if carried.acquired then pipeline.stall carried.latency
        else pipeline) := by
  rw [same.acquired]
  cases running : carried.acquired with
  | false => exact ⟨timing, rfl, represents⟩
  | true =>
      rw [same.latency running]
      exact represents.advance (carried.running running)

omit represents in
theorem mult_waited :
    (if pipeline.mult.acquired then pipeline.stall pipeline.mult.latency
      else pipeline).mult.acquired = false := by
  split
  next => exact OperationReservation.advance_latency pipeline.mult
  next idle => exact Bool.of_not_eq_true idle

omit represents in
theorem div_waited :
    (if pipeline.div.acquired then pipeline.stall pipeline.div.latency
      else pipeline).div.acquired = false := by
  split
  next => exact OperationReservation.advance_latency pipeline.div
  next idle => exact Bool.of_not_eq_true idle

theorem reserveMult {numCycles : Nat} (positive : 0 < numCycles) :
    Reaches (timing.reserveMult numCycles)
      (pipeline.reserveMult numCycles positive) := by
  obtain ⟨waited, waits, corresponds⟩ := represents.wait represents.mult
  obtain ⟨mult, acquires, acquired⟩ :=
    corresponds.mult.acquire mult_waited positive
  refine ⟨{ waited with mult := mult }, ?_,
    { corresponds with mult := acquired }⟩
  rw [PipelineTiming.reserveMult, waits, Option.bind_eq_bind,
    Option.bind_some, acquires]
  rfl

theorem reserveDiv {numCycles : Nat} (positive : 0 < numCycles) :
    Reaches (timing.reserveDiv numCycles)
      (pipeline.reserveDiv numCycles positive) := by
  obtain ⟨waited, waits, corresponds⟩ := represents.wait represents.div
  obtain ⟨div, acquires, acquired⟩ :=
    corresponds.div.acquire div_waited positive
  refine ⟨{ waited with div := div }, ?_,
    { corresponds with div := acquired }⟩
  rw [PipelineTiming.reserveDiv, waits, Option.bind_eq_bind,
    Option.bind_some, acquires]
  rfl

theorem doMult {rd : BitVec 5} {after : HiFive1PipelineTiming}
    (does : pipeline.doMult rd = some after) :
    Reaches (timing.doMult rd) after := by
  obtain ⟨reserved, reserves, corresponds⟩ :=
    represents.reserveMult (show 0 < 6 by decide)
  have adds := corresponds.addResultLatency does
  rw [PipelineTiming.doMult, show multResultLatency = (6 : Nat) from rfl,
    reserves]
  exact adds

theorem doDiv {rd : BitVec 5} {after : HiFive1PipelineTiming}
    (does : pipeline.doDiv rd = some after) :
    Reaches (timing.doDiv rd) after := by
  have drawn : PipelineTiming.Represents
      { timing with randCalls := timing.randCalls + 1 }
      { pipeline with randCalls := pipeline.randCalls + 1 } :=
    { represents with
      randCalls := congrArg (· + 1) represents.randCalls }
  have latency : divResultLatency (timing.rand timing.randCalls) =
      ((pipeline.rand pipeline.randCalls % 5 + 6 : Nat) : Int) := by
    rw [represents.rand, represents.randCalls]
    rfl
  obtain ⟨reserved, reserves, corresponds⟩ :=
    drawn.reserveDiv (Nat.succ_pos
      (pipeline.rand pipeline.randCalls % 5 + 5))
  have adds := corresponds.addResultLatency does
  rw [PipelineTiming.doDiv, latency]
  change Reaches (Option.bind _ _) _
  rw [reserves]
  exact adds

theorem hasStoreReservation (addrs : Range) :
    timing.hasStoreReservation addrs = pipeline.hasStoreReservation addrs := by
  rw [PipelineTiming.hasStoreReservation,
    HiFive1PipelineTiming.hasStoreReservation, represents.stores,
    List.any_map]
  rfl

theorem doLoad {addrRange : Range} {rd : BitVec 5} {latency : Nat}
    {positive : 0 < latency} {after : HiFive1PipelineTiming}
    (does : pipeline.doLoad addrRange rd latency positive = some after) :
    Reaches (timing.doLoad addrRange rd latency) after := by
  rw [PipelineTiming.doLoad, represents.hasStoreReservation]
  rw [HiFive1PipelineTiming.doLoad] at does
  split at does
  next overlaps =>
    obtain ⟨stalled, stalls, corresponds⟩ :=
      represents.advance (show 0 < 5 by decide)
    have adds := corresponds.addResultLatency does
    rw [if_pos overlaps]
    change Reaches (Option.bind _ _) _
    rw [show timing.stall 5 = some stalled from stalls]
    convert adds using 2
    split <;> rfl
  next separate =>
    rw [if_neg separate, Int.add_zero]
    exact represents.addResultLatency does

/-- Every call is simulated. -/
theorem apply (event : PipelineEvent) {after : HiFive1PipelineTiming}
    (applies : event.apply pipeline = some after) :
    Reaches (timing.apply event) after := by
  cases event with
  | accessRegister regIdx =>
      cases applies
      exact represents.accessRegister regIdx
  | reserveStore addrRange numCycles =>
      cases applies
      refine ⟨timing.reserveStore addrRange numCycles, rfl,
        { represents with stores := ?_ }⟩
      simp [PipelineTiming.reserveStore, HiFive1PipelineTiming.reserveStore,
        represents.stores, StoreReservation.of]
  | doLoad addrRange rd latency positive => exact represents.doLoad applies
  | doMult rd => exact represents.doMult applies
  | doDiv rd => exact represents.doDiv applies
  | doCsr rd => exact represents.addResultLatency applies

end Represents

end PipelineTiming

end Asserted

end Rv32

end RiscvVp
