import RiscvVp.Device.RegisterRange

/-!
# The interruptor in real time

`core/common/real_clint.cpp` and `core/common/timer.cpp`.  The `mtime` of this
device is a conversion of the real time that has passed since its constructor,
and every hart has a timer: a thread that sleeps until the hart's compare value
is due and then notifies the device.
-/

namespace RiscvVp

open Device

namespace Timer

/-- `NS_MAX` -/
def nsMax : BitVec 64 := 999999999

/-- `US_MAX` -/
def usMax : BitVec 64 := nsMax / 1000

/-- `LONG_MAX` -/
def longMax : BitVec 64 := 0x7FFFFFFFFFFFFFFF

/-- The nanoseconds that `callback` passes to `nanosleep`, call after call, for
a duration in microseconds. -/
def sleeps (count : BitVec 64) : Except Failure (List (BitVec 64)) :=
  if longer : usMax < count then
    (sleeps (count - usMax)).map (nsMax :: ·)
  else do
    let ns := count * 1000
    assert (count < ns)
    assert (ns ≤ longMax)
    return [ns]
termination_by count.toNat
decreasing_by
  have positive : 0 < usMax.toNat := by decide
  have below : usMax.toNat < count.toNat := longer
  rw [BitVec.toNat_sub_of_le (BitVec.le_of_lt longer)]
  omega

end Timer

/-- `RealCLINT` -/
structure RealClint : Type where
  regsMtimecmp : Storage
  regsMtime : Storage
  /-- what each target was last told by `trigger_timer_interrupt` -/
  timerInterrupt : ℕ → Bool
  /-- the duration that a timer has been started with -/
  timers : ℕ → Option (BitVec 64)

namespace RealClint

/-- What has passed since `first_mtime`: whole microseconds, which
`duration_cast` keeps, and the nanoseconds that it drops. -/
structure Elapsed : Type where
  usecs : BitVec 64
  nanoseconds : Fin 1000
  deriving DecidableEq, Repr

/-- `DIVIDEND`: both operands are integers. -/
def dividend : BitVec 64 := 15625 / 512

def usecToTicks (usec : BitVec 64) : BitVec 64 := usec / dividend

def ticksToUsec (ticks : BitVec 64) : BitVec 64 := ticks * dividend

/-- After the constructor. -/
def reset : RealClint where
  regsMtimecmp := .zeroed
  regsMtime := .zeroed
  timerInterrupt := fun _ => false
  timers := fun _ => none

def mtime (clint : RealClint) : BitVec 64 := clint.regsMtime.doubleWord 0

def mtimecmp (clint : RealClint) (hart : ℕ) : BitVec 64 :=
  clint.regsMtimecmp.doubleWord hart

def triggerTimerInterrupt (hart : ℕ) (status : Bool) (clint : RealClint) :
    RealClint :=
  { clint with
    timerInterrupt := fun other =>
      if other = hart then status else clint.timerInterrupt other }

/-- `Timer::pause` and `Timer::start` of a hart's timer -/
def setTimer (hart : ℕ) (duration : Option (BitVec 64)) (clint : RealClint) :
    RealClint :=
  { clint with
    timers := fun other =>
      if other = hart then duration else clint.timers other }

section Registers

variable (clint : RealClint) (hart : ℕ) (status : Bool)
  (duration : Option (BitVec 64))

@[simp]
theorem mtime_triggerTimerInterrupt :
    (clint.triggerTimerInterrupt hart status).mtime = clint.mtime :=
  rfl

@[simp]
theorem mtimecmp_triggerTimerInterrupt (other : ℕ) :
    (clint.triggerTimerInterrupt hart status).mtimecmp other =
      clint.mtimecmp other :=
  rfl

@[simp]
theorem timerInterrupt_triggerTimerInterrupt :
    (clint.triggerTimerInterrupt hart status).timerInterrupt hart = status :=
  if_pos rfl

@[simp]
theorem timers_triggerTimerInterrupt :
    (clint.triggerTimerInterrupt hart status).timers = clint.timers :=
  rfl

@[simp]
theorem mtime_setTimer :
    (clint.setTimer hart duration).mtime = clint.mtime :=
  rfl

@[simp]
theorem mtimecmp_setTimer (other : ℕ) :
    (clint.setTimer hart duration).mtimecmp other = clint.mtimecmp other :=
  rfl

@[simp]
theorem timerInterrupt_setTimer :
    (clint.setTimer hart duration).timerInterrupt = clint.timerInterrupt :=
  rfl

@[simp]
theorem timers_setTimer :
    (clint.setTimer hart duration).timers hart = duration :=
  if_pos rfl

end Registers

def updateAndGetMtime (now : Elapsed) (clint : RealClint) :
    BitVec 64 × RealClint :=
  let mtime := usecToTicks now.usecs
  (mtime, { clint with regsMtime := clint.regsMtime.setDoubleWord 0 mtime })

@[simp]
theorem mtime_updateAndGetMtime (now : Elapsed) (clint : RealClint) :
    (clint.updateAndGetMtime now).2.mtime = usecToTicks now.usecs :=
  Storage.doubleWord_setDoubleWord _ _ _

@[simp]
theorem mtimecmp_updateAndGetMtime (now : Elapsed) (clint : RealClint)
    (hart : ℕ) :
    (clint.updateAndGetMtime now).2.mtimecmp hart = clint.mtimecmp hart :=
  rfl

def postWriteMtimecmp (numberOfHarts : ℕ) (now : Elapsed) (info : AccessInfo)
    (clint : RealClint) : Except Failure RealClint := do
  assert (info.addr % 4 = 0)
  let hart := info.addr / 8
  assert (hart < numberOfHarts)
  let cmp := clint.mtimecmp hart
  let (time, clint) := clint.updateAndGetMtime now
  let clint := clint.setTimer hart none
  if cmp ≤ time then
    return clint.triggerTimerInterrupt hart true
  else
    return (clint.triggerTimerInterrupt hart false).setTimer hart
      (some (ticksToUsec (cmp - time)))

end RealClint

end RiscvVp
