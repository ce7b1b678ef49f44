import Mathlib.Data.List.Nodup

/-!
# The pipeline timing model

`HiFive1PipelineTiming` tracks which registers, units and addresses have an
operation pending.  The assertions of the source that only concern its own
data are fields here: a pending latency is positive, a unit that is acquired
has cycles left, and no register is pending twice.  Advancing keeps them by
construction.

The one assertion that depends on the order of calls, `!_find(reg_idx)` in
`add_result_latency`, is an option.  `notPending_accessRegister` says why it
never fails: the instruction set simulator always touches the destination
register first, which waits for it.
-/

namespace RiscvVp

namespace Rv32

namespace Timing

/-- `Range`, from `start` up to but not including `finish`. -/
structure Range where
  start : BitVec 32
  finish : BitVec 32

namespace Range

def overlaps (range other : Range) : Bool :=
  if other.start < range.start then other.finish > range.start
  else range.finish > other.start

def size (range : Range) : BitVec 32 := range.finish - range.start

end Range

structure StoreReservation where
  range : Range
  latency : Nat
  positive : 0 < latency

structure RegisterLatency where
  regIdx : BitVec 5
  latency : Nat
  positive : 0 < latency

theorem OperationReservation.idle : false = true → 0 < 0 := nofun

/-- A unit that is in use for `latency` more cycles, when `acquired`. -/
structure OperationReservation where
  acquired : Bool := false
  latency : Nat := 0
  running : acquired = true → 0 < latency := by
    exact Rv32.Timing.OperationReservation.idle

def StoreReservation.advance (numCycles : Nat)
    (reservation : StoreReservation) : Option StoreReservation :=
  if left : numCycles < reservation.latency then
    some { reservation with
      latency := reservation.latency - numCycles
      positive := Nat.sub_pos_of_lt left }
  else none

def RegisterLatency.advance (numCycles : Nat)
    (entry : RegisterLatency) : Option RegisterLatency :=
  if left : numCycles < entry.latency then
    some { entry with
      latency := entry.latency - numCycles
      positive := Nat.sub_pos_of_lt left }
  else none

/-- Advancing past the end releases the unit. -/
def OperationReservation.advance (numCycles : Nat)
    (unit : OperationReservation) : OperationReservation :=
  if left : unit.acquired = true ∧ numCycles < unit.latency then
    { acquired := true
      latency := unit.latency - numCycles
      running := fun _ => Nat.sub_pos_of_lt left.2 }
  else {}

/-- A freshly acquired unit. -/
def OperationReservation.acquire (numCycles : Nat)
    (positive : 0 < numCycles) : OperationReservation :=
  { acquired := true, latency := numCycles, running := fun _ => positive }

theorem RegisterLatency.advance_regIdx {numCycles : Nat}
    {entry next : RegisterLatency}
    (advanced : entry.advance numCycles = some next) :
    next.regIdx = entry.regIdx := by
  unfold RegisterLatency.advance at advanced
  split at advanced
  · cases advanced
    rfl
  · cases advanced

theorem RegisterLatency.nodup_nil :
    (([] : List RegisterLatency).map RegisterLatency.regIdx).Nodup :=
  List.nodup_nil

/-- The registers that stay pending are among those that were. -/
theorem sublist_advance (numCycles : Nat) (entries : List RegisterLatency) :
    ((entries.filterMap (RegisterLatency.advance numCycles)).map
      RegisterLatency.regIdx).Sublist
        (entries.map RegisterLatency.regIdx) := by
  induction entries with
  | nil => exact .slnil
  | cons entry rest inductionHypothesis =>
      cases advanced : RegisterLatency.advance numCycles entry with
      | none =>
          rw [List.filterMap_cons_none advanced]
          exact inductionHypothesis.cons _
      | some next =>
          rw [List.filterMap_cons_some advanced, List.map_cons, List.map_cons,
            RegisterLatency.advance_regIdx advanced]
          exact inductionHypothesis.cons_cons _

end Timing

open Timing

/-- `HiFive1PipelineTiming`.  The results of `rand()` are a given sequence. -/
structure HiFive1PipelineTiming where
  pendingRegisterLatencies : List RegisterLatency := []
  mult : OperationReservation := {}
  div : OperationReservation := {}
  pendingStoreReservations : List StoreReservation := []
  numTotalCycles : BitVec 64 := 0
  rand : Nat → Nat := fun _ => 0
  randCalls : Nat := 0
  distinct :
    (pendingRegisterLatencies.map RegisterLatency.regIdx).Nodup := by
      exact Rv32.Timing.RegisterLatency.nodup_nil

namespace HiFive1PipelineTiming

/-- Advance every pending operation. -/
def advance (numCycles : Nat) (pipeline : HiFive1PipelineTiming) :
    HiFive1PipelineTiming :=
  { pipeline with
    pendingRegisterLatencies :=
      pipeline.pendingRegisterLatencies.filterMap
        (RegisterLatency.advance numCycles)
    mult := pipeline.mult.advance numCycles
    div := pipeline.div.advance numCycles
    pendingStoreReservations :=
      pipeline.pendingStoreReservations.filterMap
        (StoreReservation.advance numCycles)
    numTotalCycles := pipeline.numTotalCycles + BitVec.ofNat 64 numCycles
    distinct := pipeline.distinct.sublist (sublist_advance numCycles _) }

def stall (numCycles : Nat) (pipeline : HiFive1PipelineTiming) :
    HiFive1PipelineTiming :=
  pipeline.advance numCycles

/-- Wait for the operation pending on a register. -/
def accessRegister (regIdx : BitVec 5) (pipeline : HiFive1PipelineTiming) :
    HiFive1PipelineTiming :=
  match pipeline.pendingRegisterLatencies.find? (·.regIdx == regIdx) with
  | some entry => pipeline.stall entry.latency
  | none => pipeline

/-- `!_find(reg_idx)` -/
def NotPending (regIdx : BitVec 5) (pipeline : HiFive1PipelineTiming) :
    Prop :=
  regIdx ∉ pipeline.pendingRegisterLatencies.map RegisterLatency.regIdx

instance (regIdx : BitVec 5) (pipeline : HiFive1PipelineTiming) :
    Decidable (pipeline.NotPending regIdx) :=
  inferInstanceAs (Decidable (¬ _))

/-- Nothing when the register is already pending. -/
def addResultLatency (regIdx : BitVec 5) (resultLatency : Nat)
    (positive : 0 < resultLatency) (pipeline : HiFive1PipelineTiming) :
    Option HiFive1PipelineTiming :=
  if free : pipeline.NotPending regIdx then
    some { pipeline with
      pendingRegisterLatencies :=
        pipeline.pendingRegisterLatencies ++
          [⟨regIdx, resultLatency, positive⟩]
      distinct := by
        rw [List.map_append, List.nodup_append']
        refine ⟨pipeline.distinct, List.nodup_singleton _, ?_⟩
        exact List.disjoint_singleton.2 free }
  else none

/-- `reserve_mult`: wait for the unit, then take it. -/
def reserveMult (numCycles : Nat) (positive : 0 < numCycles)
    (pipeline : HiFive1PipelineTiming) : HiFive1PipelineTiming :=
  let waited :=
    if pipeline.mult.acquired then pipeline.stall pipeline.mult.latency
    else pipeline
  { waited with mult := .acquire numCycles positive }

def reserveDiv (numCycles : Nat) (positive : 0 < numCycles)
    (pipeline : HiFive1PipelineTiming) : HiFive1PipelineTiming :=
  let waited :=
    if pipeline.div.acquired then pipeline.stall pipeline.div.latency
    else pipeline
  { waited with div := .acquire numCycles positive }

/-- `do_mult`, whose latency does not depend on the operands. -/
def doMult (resultRegIdx : BitVec 5) (pipeline : HiFive1PipelineTiming) :
    Option HiFive1PipelineTiming :=
  (pipeline.reserveMult 6 (by decide)).addResultLatency resultRegIdx 7
    (by decide)

/-- `do_div`, with a random latency. -/
def doDiv (resultRegIdx : BitVec 5) (pipeline : HiFive1PipelineTiming) :
    Option HiFive1PipelineTiming :=
  let numCycles := pipeline.rand pipeline.randCalls % 5 + 6
  let drawn := { pipeline with randCalls := pipeline.randCalls + 1 }
  (drawn.reserveDiv numCycles (Nat.succ_pos _)).addResultLatency
    resultRegIdx numCycles (Nat.succ_pos _)

def doCsr (resultRegIdx : BitVec 5) (pipeline : HiFive1PipelineTiming) :
    Option HiFive1PipelineTiming :=
  pipeline.addResultLatency resultRegIdx 5 (by decide)

def reserveStore (addrRange : Range) (numCycles : Nat)
    (pipeline : HiFive1PipelineTiming) : HiFive1PipelineTiming :=
  { pipeline with
    pendingStoreReservations :=
      pipeline.pendingStoreReservations ++
        [⟨addrRange, numCycles + 1, Nat.succ_pos _⟩] }

def hasStoreReservation (addrs : Range) (pipeline : HiFive1PipelineTiming) :
    Bool :=
  pipeline.pendingStoreReservations.any fun reservation =>
    reservation.range.overlaps addrs

/-- `do_load`: a load over a pending store waits, and longer when it is
narrower than a word. -/
def doLoad (addrRange : Range) (rd : BitVec 5) (latency : Nat)
    (positive : 0 < latency) (pipeline : HiFive1PipelineTiming) :
    Option HiFive1PipelineTiming :=
  if pipeline.hasStoreReservation addrRange then
    let extra := if addrRange.size < 4 then 2 else 0
    (pipeline.stall 5).addResultLatency rd (latency + extra)
      (Nat.add_pos_left positive _)
  else pipeline.addResultLatency rd latency positive

/-! ## The destination register is never pending -/

theorem NotPending.advance {regIdx : BitVec 5}
    {pipeline : HiFive1PipelineTiming} (free : pipeline.NotPending regIdx)
    (numCycles : Nat) : (pipeline.advance numCycles).NotPending regIdx :=
  fun pending => free ((sublist_advance numCycles _).subset pending)

theorem NotPending.reserveMult {regIdx : BitVec 5}
    {pipeline : HiFive1PipelineTiming} (free : pipeline.NotPending regIdx)
    (numCycles : Nat) (positive : 0 < numCycles) :
    (pipeline.reserveMult numCycles positive).NotPending regIdx := by
  unfold HiFive1PipelineTiming.reserveMult
  show NotPending regIdx (if _ then _ else _)
  split
  · exact free.advance _
  · exact free

theorem NotPending.reserveDiv {regIdx : BitVec 5}
    {pipeline : HiFive1PipelineTiming} (free : pipeline.NotPending regIdx)
    (numCycles : Nat) (positive : 0 < numCycles) :
    (pipeline.reserveDiv numCycles positive).NotPending regIdx := by
  unfold HiFive1PipelineTiming.reserveDiv
  show NotPending regIdx (if _ then _ else _)
  split
  · exact free.advance _
  · exact free

theorem isSome_addResultLatency {regIdx : BitVec 5}
    {pipeline : HiFive1PipelineTiming} (free : pipeline.NotPending regIdx)
    (resultLatency : Nat) (positive : 0 < resultLatency) :
    (pipeline.addResultLatency regIdx resultLatency positive).isSome := by
  unfold addResultLatency
  rw [dif_pos free]
  rfl

/-- Touching a register waits until it is no longer pending. -/
theorem notPending_accessRegister (regIdx : BitVec 5)
    (pipeline : HiFive1PipelineTiming) :
    (pipeline.accessRegister regIdx).NotPending regIdx := by
  unfold accessRegister
  split
  · next entry found =>
      have listed := List.mem_of_find?_eq_some found
      have named : entry.regIdx = regIdx := by
        simpa using List.find?_some found
      intro pending
      rw [stall, HiFive1PipelineTiming.advance] at pending
      obtain ⟨later, survived, sameIdx⟩ := List.mem_map.1 pending
      obtain ⟨earlier, member, advanced⟩ := List.mem_filterMap.1 survived
      -- no register is pending twice, so the survivor is the entry waited for
      have same : earlier = entry :=
        List.inj_on_of_nodup_map pipeline.distinct member listed <| by
          rw [← RegisterLatency.advance_regIdx advanced, sameIdx, named]
      rw [same] at advanced
      simp [RegisterLatency.advance] at advanced
  · next missing =>
      intro pending
      obtain ⟨entry, member, sameIdx⟩ := List.mem_map.1 pending
      have absent := List.find?_eq_none.1 missing entry member
      simp [sameIdx] at absent

end HiFive1PipelineTiming

end Rv32

end RiscvVp
