import Mathlib
import RiscvVp.Device.RealClint

/-!
# The ticks of the real-time clock

The clock runs at 32768 Hz, so a tick is 15625/512 microseconds.  The device
rounds that to 30: its `mtime` gains 265 parts in 15360 on the clock.  A timer
sleeps in slices of `US_MAX` microseconds and each full slice takes 999
nanoseconds more than it is counted for.
-/

namespace RiscvVp

open Device

namespace Timer

/-- How long the timer sleeps in all. -/
def slept (naps : List (BitVec 64)) : ℕ := (naps.map BitVec.toNat).sum

theorem toNat_usMax : usMax.toNat = 999999 := by
  decide

theorem toNat_nsMax : nsMax.toNat = 999999999 := by
  decide

section Slice

variable {count : BitVec 64} (last : count ≤ usMax)

include last

theorem toNat_mul_of_le : (count * 1000).toNat = count.toNat * 1000 := by
  have bounded : count.toNat ≤ 999999 := by
    rw [← toNat_usMax]
    exact last
  rw [BitVec.toNat_mul]
  apply Nat.mod_eq_of_lt
  change count.toNat * 1000 < 2 ^ 64
  omega

/-- The last slice, which is at most `US_MAX` microseconds long. -/
theorem sleeps_of_le (positive : 0 < count) :
    sleeps count = .ok [count * 1000] := by
  have nonzero : 0 < count.toNat := positive
  have grows : count < count * 1000 := by
    rw [BitVec.lt_def, toNat_mul_of_le last]
    omega
  have fits : count * 1000 ≤ longMax := by
    rw [BitVec.le_def, toNat_mul_of_le last]
    exact Nat.le_trans (Nat.mul_le_mul_right 1000 last) (by decide)
  rw [sleeps, dif_neg (BitVec.not_lt.mpr last)]
  simp only [decide_eq_true grows, decide_eq_true fits, assert_true]
  rfl

end Slice

/-- A timer of no duration fails its assertion. -/
theorem sleeps_zero : sleeps 0 = .error .assertion := by
  rw [sleeps, dif_neg (by decide)]
  rfl

theorem pos_of_sleeps {count : BitVec 64} {naps : List (BitVec 64)}
    (programmed : sleeps count = .ok naps) : 0 < count := by
  rcases Nat.eq_zero_or_pos count.toNat with zero | positive
  · have vanishes : count = 0 := BitVec.eq_of_toNat_eq zero
    rw [vanishes, sleeps_zero] at programmed
    cases programmed
  · exact positive

/-- A timer sleeps its duration and 999 nanoseconds for each slice before the
last. -/
theorem slept_sleeps (count : BitVec 64) (positive : 0 < count) :
    ∃ naps, sleeps count = .ok naps ∧
      slept naps = count.toNat * 1000 + (count.toNat - 1) / 999999 * 999 := by
  induction count using sleeps.induct with
  | case1 count longer inductionHypothesis =>
      have above : 999999 < count.toNat := by
        rw [← toNat_usMax]
        exact longer
      have difference : (count - usMax).toNat = count.toNat - 999999 := by
        rw [BitVec.toNat_sub_of_le (BitVec.le_of_lt longer), toNat_usMax]
      have remains : 0 < count - usMax := by
        rw [BitVec.lt_def, difference]
        change 0 < _
        omega
      obtain ⟨naps, rest, total⟩ := inductionHypothesis remains
      refine ⟨nsMax :: naps, ?_, ?_⟩
      · rw [sleeps, dif_pos longer, rest]
        rfl
      · have slice : slept (nsMax :: naps) = 999999999 + slept naps := by
          rw [slept, List.map_cons, List.sum_cons, toNat_nsMax, slept]
        rw [slice, total, difference]
        omega
  | case2 count last =>
      have bounded := BitVec.not_lt.mp last
      have small : count.toNat ≤ 999999 := by
        rw [← toNat_usMax]
        exact bounded
      refine ⟨_, sleeps_of_le bounded positive, ?_⟩
      have none : (count.toNat - 1) / 999999 = 0 :=
        Nat.div_eq_of_lt (by omega)
      rw [slept, List.map_singleton, List.sum_singleton,
        toNat_mul_of_le bounded, none]
      omega

end Timer

namespace RealClint

/-! ## Ticks -/

/-- The ticks of a clock of 32768 Hz. -/
def rtcTicks (usec : ℕ) : ℕ := usec * 32768 / 1000000

theorem toNat_dividend : dividend.toNat = 30 := by
  decide

theorem toNat_usecToTicks (usec : BitVec 64) :
    (usecToTicks usec).toNat = usec.toNat / 30 := by
  rw [usecToTicks, BitVec.toNat_udiv, toNat_dividend]

/-- The device and the clock agree until a tick has been gained. -/
theorem usecToTicks_eq_rtcTicks_iff (usec : BitVec 64) :
    (usecToTicks usec).toNat = rtcTicks usec.toNat ↔
      265 * (usec.toNat / 30) ≤ 512 * (usec.toNat % 30) := by
  have reduced : rtcTicks usec.toNat = usec.toNat * 512 / 15625 := by
    rw [rtcTicks]
    omega
  rw [toNat_usecToTicks, reduced]
  omega

theorem usecToTicks_mono {earlier usec : BitVec 64} (order : earlier ≤ usec) :
    usecToTicks earlier ≤ usecToTicks usec := by
  rw [BitVec.le_def, toNat_usecToTicks, toNat_usecToTicks]
  exact Nat.div_le_div_right order

/-- The microseconds after which `mtime` has counted this many ticks. -/
def reachedAt (ticks : ℕ) : ℕ := ticks * 30

/-! ## Timers -/

/-- What has passed, in nanoseconds. -/
def Elapsed.total (now : Elapsed) : ℕ :=
  now.usecs.toNat * 1000 + now.nanoseconds

/-- A hart's timer ends its sleep not before `mtime` reaches the compare value
and not after `mtime` leaves it. -/
def FiresInTime (now : Elapsed) (clint : RealClint) (hart : ℕ) : Prop :=
  ∃ duration naps, clint.timers hart = some duration ∧
    Timer.sleeps duration = .ok naps ∧
    reachedAt (clint.mtimecmp hart).toNat * 1000 ≤
      now.total + Timer.slept naps ∧
    now.total + Timer.slept naps ≤
      reachedAt ((clint.mtimecmp hart).toNat + 1) * 1000

/-- What a write of a compare value owes to a hart: the interrupt at once, or a
timer. -/
def Programmed (now : Elapsed) (clint : RealClint) (hart : ℕ) : Prop :=
  if clint.mtimecmp hart ≤ clint.mtime then
    clint.timerInterrupt hart = true ∧ clint.timers hart = none
  else clint.timerInterrupt hart = false ∧ FiresInTime now clint hart

/-- What is expected of the conversions at a time, for a write to a hart's
compare value. -/
structure TicksHold (numberOfHarts : ℕ) (now : Elapsed) (info : AccessInfo)
    (clint : RealClint) : Prop where
  exact : (usecToTicks now.usecs).toNat = rtcTicks now.usecs.toNat
  monotone : ∀ earlier ≤ now.usecs,
    usecToTicks earlier ≤ usecToTicks now.usecs
  fires : ∃ later, clint.postWriteMtimecmp numberOfHarts now info = .ok later ∧
    later.mtime = usecToTicks now.usecs ∧
    Programmed now later (info.addr / 8)

/-- For how long a timer that is started now and sleeps for so many ticks still
sleeps in the tick in which it is due, in nanoseconds. -/
def lateness (now : Elapsed) (ticks : ℕ) : ℕ :=
  now.usecs.toNat % 30 * 1000 + now.nanoseconds +
    (ticks * 30 - 1) / 999999 * 999

/-- Whatever a duration loses by wrapping is more than its slices gain. -/
theorem early_of_quotient {size usec fraction cmp duration quotient : ℕ}
    (large : 31 ≤ size) (below : fraction < 1000) (bounded : duration < size)
    (wraps : 0 < quotient)
    (split : size * quotient + duration = (cmp - usec / 30) * 30) :
    usec * 1000 + fraction +
        (duration * 1000 + (duration - 1) / 999999 * 999) <
      cmp * 30 * 1000 := by
  have lost : size ≤ size * quotient := Nat.le_mul_of_pos_right size wraps
  have gained : (duration - 1) / 999999 * 999 ≤ duration := by omega
  omega

section Duration

variable (now : Elapsed) {cmp : BitVec 64}
  (pending : usecToTicks now.usecs < cmp)

include pending

/-- The ticks that are still to come, and how their duration wraps. -/
theorem toNat_ticksToUsec :
    now.usecs.toNat / 30 < cmp.toNat ∧
      (ticksToUsec (cmp - usecToTicks now.usecs)).toNat =
        (cmp.toNat - now.usecs.toNat / 30) * 30 % 2 ^ 64 := by
  have order : now.usecs.toNat / 30 < cmp.toNat := by
    rw [← toNat_usecToTicks]
    exact pending
  refine ⟨order, ?_⟩
  rw [ticksToUsec, BitVec.toNat_mul, toNat_dividend,
    BitVec.toNat_sub_of_le (BitVec.le_of_lt pending), toNat_usecToTicks]

/-- When the duration has wrapped the timer does not sleep long enough. -/
theorem early_of_wrapped {naps : List (BitVec 64)}
    (wrapped : 2 ^ 64 ≤ (cmp.toNat - now.usecs.toNat / 30) * 30)
    (programmed : Timer.sleeps (ticksToUsec (cmp - usecToTicks now.usecs)) =
      .ok naps) :
    now.total + Timer.slept naps < reachedAt cmp.toNat * 1000 := by
  obtain ⟨order, duration⟩ := toNat_ticksToUsec now pending
  obtain ⟨others, same, total⟩ :=
    Timer.slept_sleeps _ (Timer.pos_of_sleeps programmed)
  rw [programmed] at same
  cases same
  have split := Nat.div_add_mod
    ((cmp.toNat - now.usecs.toNat / 30) * 30) (2 ^ 64)
  rw [← duration] at split
  rw [total, Elapsed.total, reachedAt]
  exact early_of_quotient (by decide) now.nanoseconds.isLt (BitVec.isLt _)
    (Nat.div_pos wrapped (by decide)) split

/-- When the duration has not wrapped the timer never ends early. -/
theorem slept_of_not_wrapped
    (fits : (cmp.toNat - now.usecs.toNat / 30) * 30 < 2 ^ 64) :
    ∃ naps,
      Timer.sleeps (ticksToUsec (cmp - usecToTicks now.usecs)) = .ok naps ∧
      now.total + Timer.slept naps = reachedAt cmp.toNat * 1000 +
        lateness now (cmp.toNat - now.usecs.toNat / 30) := by
  obtain ⟨order, duration⟩ := toNat_ticksToUsec now pending
  rw [Nat.mod_eq_of_lt fits] at duration
  have positive : 0 < ticksToUsec (cmp - usecToTicks now.usecs) := by
    rw [BitVec.lt_def, duration]
    change 0 < _
    omega
  obtain ⟨naps, programmed, total⟩ := Timer.slept_sleeps _ positive
  refine ⟨naps, programmed, ?_⟩
  rw [total, duration, Elapsed.total, reachedAt, lateness]
  omega

/-- A timer fires in time when it is not late by more than what is left of the
tick. -/
theorem firesInTime_iff (clint : RealClint) (hart : ℕ)
    (compare : clint.mtimecmp hart = cmp)
    (armed : clint.timers hart =
      some (ticksToUsec (cmp - usecToTicks now.usecs))) :
    FiresInTime now clint hart ↔
      lateness now (cmp.toNat - now.usecs.toNat / 30) ≤ 30000 := by
  rw [FiresInTime, compare, armed]
  by_cases fits : (cmp.toNat - now.usecs.toNat / 30) * 30 < 2 ^ 64
  · obtain ⟨naps, programmed, total⟩ := slept_of_not_wrapped now pending fits
    constructor
    · intro fires
      obtain ⟨duration, others, same, sleeps, _, upper⟩ := fires
      cases same
      rw [programmed] at sleeps
      cases sleeps
      rw [total, reachedAt, reachedAt] at upper
      omega
    · intro inside
      refine ⟨_, naps, rfl, programmed, ?_, ?_⟩
      · omega
      · rw [total, reachedAt, reachedAt]
        omega
  · have wrapped := Nat.le_of_not_lt fits
    constructor
    · intro fires
      obtain ⟨duration, naps, same, sleeps, lower, _⟩ := fires
      cases same
      have early := early_of_wrapped now pending wrapped sleeps
      omega
    · intro inside
      rw [lateness] at inside
      omega

end Duration

/-! ## A write of a compare value -/

section Write

variable {numberOfHarts : ℕ} {info : AccessInfo}
  (aligned : info.addr % 4 = 0) (inside : info.addr / 8 < numberOfHarts)
  (now : Elapsed) (clint : RealClint)

include aligned inside

theorem postWriteMtimecmp_of_due
    (due : clint.mtimecmp (info.addr / 8) ≤ usecToTicks now.usecs) :
    clint.postWriteMtimecmp numberOfHarts now info =
      .ok (((clint.updateAndGetMtime now).2.setTimer (info.addr / 8) none)
        |>.triggerTimerInterrupt (info.addr / 8) true) := by
  simp only [postWriteMtimecmp, decide_eq_true aligned,
    decide_eq_true inside]
  exact if_pos due

theorem postWriteMtimecmp_of_pending
    (pending : usecToTicks now.usecs < clint.mtimecmp (info.addr / 8)) :
    clint.postWriteMtimecmp numberOfHarts now info =
      .ok (((clint.updateAndGetMtime now).2.setTimer (info.addr / 8) none)
        |>.triggerTimerInterrupt (info.addr / 8) false
        |>.setTimer (info.addr / 8) (some (ticksToUsec
          (clint.mtimecmp (info.addr / 8) - usecToTicks now.usecs)))) := by
  simp only [postWriteMtimecmp, decide_eq_true aligned,
    decide_eq_true inside]
  exact if_neg (BitVec.not_le.mpr pending)

theorem programmed_postWriteMtimecmp :
    ∃ later, clint.postWriteMtimecmp numberOfHarts now info = .ok later ∧
      later.mtime = usecToTicks now.usecs ∧
      (Programmed now later (info.addr / 8) ↔
        ((clint.mtimecmp (info.addr / 8)).toNat ≤ now.usecs.toNat / 30 ∨
          lateness now ((clint.mtimecmp (info.addr / 8)).toNat -
            now.usecs.toNat / 30) ≤ 30000)) := by
  rw [← toNat_usecToTicks, ← BitVec.le_def]
  by_cases due : clint.mtimecmp (info.addr / 8) ≤ usecToTicks now.usecs
  · refine ⟨_, postWriteMtimecmp_of_due aligned inside now clint due, ?_, ?_⟩
    · simp
    · simp [Programmed, due]
  · have pending := BitVec.not_le.mp due
    refine ⟨_, postWriteMtimecmp_of_pending aligned inside now clint pending,
      ?_, ?_⟩
    · simp
    · rw [toNat_usecToTicks, Programmed, firesInTime_iff now pending]
      · simp [due]
      · rfl
      · apply timers_setTimer

/-- The conversions do what is expected of them as long as no tick has been
gained and the timer's slices do not add up to a tick. -/
theorem ticksHold_iff :
    TicksHold numberOfHarts now info clint ↔
      265 * (now.usecs.toNat / 30) ≤ 512 * (now.usecs.toNat % 30) ∧
        ((clint.mtimecmp (info.addr / 8)).toNat ≤ now.usecs.toNat / 30 ∨
          lateness now ((clint.mtimecmp (info.addr / 8)).toNat -
            now.usecs.toNat / 30) ≤ 30000) := by
  obtain ⟨later, written, mtime, programmed⟩ :=
    programmed_postWriteMtimecmp aligned inside now clint
  rw [← usecToTicks_eq_rtcTicks_iff, ← programmed]
  constructor
  · intro holds
    obtain ⟨other, same, _, fires⟩ := holds.fires
    rw [written] at same
    cases same
    exact ⟨holds.exact, fires⟩
  · intro ⟨exact, fires⟩
    exact ⟨exact, fun _ order => usecToTicks_mono order,
      later, written, mtime, fires⟩

end Write

/-- Five microseconds after the start a timer is programmed for tick 2. -/
theorem ticksHold_afterFive :
    TicksHold 1 ⟨5, 0⟩ ⟨0, 4⟩
      { reset with regsMtimecmp := Storage.zeroed.setDoubleWord 0 2 } :=
  (ticksHold_iff (by decide) (by decide) _ _).mpr (by decide)

/-- After 30 microseconds `mtime` is one tick ahead of the clock. -/
theorem not_ticksHold :
    ¬ ∀ (numberOfHarts : ℕ) (now : Elapsed) (info : AccessInfo)
        (clint : RealClint), info.addr % 4 = 0 →
      info.addr / 8 < numberOfHarts →
      TicksHold numberOfHarts now info clint := by
  intro always
  have holds := always 1 ⟨30, 0⟩ ⟨0, 4⟩ reset (by decide) (by decide)
  exact absurd holds.exact (by decide)

end RealClint

end RiscvVp
