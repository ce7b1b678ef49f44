import RiscvVp.Device.RegisterRange

/-!
# The core local interruptor

`core/common/clint.h`.  One `mtime` register is shared by all harts, each has
an `mtimecmp` register, and the thread `run` compares them whenever its event
is due.  `mtime` is computed on demand: the harts ask for it through
`update_and_get_mtime`, or read it over the bus with a delay of their own.

Times are in picoseconds; the kernel's time line on which notifications are
placed does not end.
-/

namespace RiscvVp

open Device

/-- `CLINT<NumberOfCores>` -/
structure Clint : Type where
  regsMtime : Storage
  regsMtimecmp : Storage
  regsMsip : Storage
  /-- what each target was last told by `trigger_timer_interrupt` -/
  timerInterrupt : ℕ → Bool
  /-- what each target was last told by `trigger_software_interrupt` -/
  softwareInterrupt : ℕ → Bool
  /-- when `irq_event` is due, if it has been notified -/
  irqEvent : Option ℕ

namespace Clint

/-- `scaler`, from picoseconds to microseconds -/
def scaler : BitVec 64 := 1000000

/-- `clock_cycle` -/
def clockCycle : BitVec 64 := 10000

/-- After the constructor. -/
def reset : Clint where
  regsMtime := .zeroed
  regsMtimecmp := .zeroed
  regsMsip := .zeroed
  timerInterrupt := fun _ => false
  softwareInterrupt := fun _ => false
  irqEvent := none

def mtime (clint : Clint) : BitVec 64 := clint.regsMtime.doubleWord 0

def setMtime (value : BitVec 64) (clint : Clint) : Clint :=
  { clint with regsMtime := clint.regsMtime.setDoubleWord 0 value }

@[simp]
theorem mtime_setMtime (value : BitVec 64) (clint : Clint) :
    (clint.setMtime value).mtime = value :=
  Storage.doubleWord_setDoubleWord _ _ _

def mtimecmp (clint : Clint) (hart : ℕ) : BitVec 64 :=
  clint.regsMtimecmp.doubleWord hart

/-- `irq_event.notify`: of two notifications the earlier one remains. -/
def notify (due : ℕ) (clint : Clint) : Clint :=
  { clint with irqEvent := some <|
      match clint.irqEvent with
      | some pending => min pending due
      | none => due }

def triggerTimerInterrupt (hart : ℕ) (status : Bool) (clint : Clint) : Clint :=
  { clint with
    timerInterrupt := fun other =>
      if other = hart then status else clint.timerInterrupt other }

def triggerSoftwareInterrupt (hart : ℕ) (status : Bool) (clint : Clint) :
    Clint :=
  { clint with
    softwareInterrupt := fun other =>
      if other = hart then status else clint.softwareInterrupt other }

/-! ## Time -/

/-- `update_and_get_mtime`, at a time of the kernel -/
def updateAndGetMtime (stamp : BitVec 64) (clint : Clint) :
    BitVec 64 × Clint :=
  let now := stamp / scaler
  let updated := if clint.mtime < now then clint.setMtime now else clint
  (updated.mtime, updated)

/-- `pre_read_mtime`, at a time of the kernel and for the delay of the
initiator -/
def preReadMtime (stamp delay : BitVec 64) (_ : AccessInfo) (clint : Clint) :
    Except Failure (Bool × Clint) :=
  .ok (true, clint.setMtime ((stamp + delay) / scaler))

/-! ## The thread -/

/-- `UINT64_MAX` -/
def uint64Max : BitVec 64 := BitVec.allOnes 64

/-- The argument of `irq_event.notify` in the loop, where it is called. -/
def goalMinusTime (mtime cmp : BitVec 64) : Option (BitVec 64) :=
  if 0 < cmp ∧ cmp < uint64Max then some (cmp * scaler - mtime * scaler)
  else none

/-- The body of the loop over the harts. -/
def process (stamp : BitVec 64) (clint : Clint) (hart : ℕ) : Clint :=
  let cmp := clint.mtimecmp hart
  if 0 < cmp ∧ cmp ≤ clint.mtime then clint.triggerTimerInterrupt hart true
  else
    let cleared := clint.triggerTimerInterrupt hart false
    match goalMinusTime clint.mtime cmp with
    | some delay => cleared.notify (stamp.toNat + delay.toNat)
    | none => cleared

/-- An activation of `run`: its event has been consumed. -/
def run (numberOfCores : ℕ) (stamp : BitVec 64) (clint : Clint) : Clint :=
  (List.range numberOfCores).foldl (process stamp)
    { (clint.updateAndGetMtime stamp).2 with irqEvent := none }

/-! ## The bus -/

/-- `post_write_mtimecmp` -/
def postWriteMtimecmp (stamp delay : BitVec 64) (_ : AccessInfo)
    (clint : Clint) : Except Failure Clint :=
  .ok (clint.notify (stamp.toNat + delay.toNat))

/-- `post_write_msip` -/
def postWriteMsip (numberOfCores : ℕ) (info : AccessInfo) (clint : Clint) :
    Except Failure Clint := do
  assert (info.addr % 4 = 0)
  let idx := info.addr / 4
  assert (idx < numberOfCores)
  let msip := clint.regsMsip.word idx &&& 0x1
  return { clint with regsMsip := clint.regsMsip.setWord idx msip }
    |>.triggerSoftwareInterrupt idx (msip != 0)

inductive RangeId : Type
  | mtime
  | mtimecmp
  | msip
  deriving DecidableEq, Repr

/-- `register_ranges`, in their order -/
def registerRanges : List RangeId := [.mtime, .mtimecmp, .msip]

/-- The ranges, with the callbacks of an access at a time and with a delay. -/
def range (numberOfCores : ℕ) (stamp delay : BitVec 64) :
    RangeId → RegisterRange Clint
  | .mtime =>
      { start := 0xBFF8
        size := 8
        alignment := 4
        mem := regsMtime
        setMem := fun mem clint => { clint with regsMtime := mem }
        preReadCallback := preReadMtime stamp delay }
  | .mtimecmp =>
      { start := 0x4000
        size := 8 * numberOfCores
        alignment := 4
        mem := regsMtimecmp
        setMem := fun mem clint => { clint with regsMtimecmp := mem }
        postWriteCallback := postWriteMtimecmp stamp delay }
  | .msip =>
      { start := 0x0
        size := 4 * numberOfCores
        alignment := 4
        mem := regsMsip
        setMem := fun mem clint => { clint with regsMsip := mem }
        postWriteCallback := postWriteMsip numberOfCores }

/-- `transport` takes two cycles. -/
def transport (numberOfCores : ℕ) (stamp delay : BitVec 64)
    (trans : Transaction) (clint : Clint) :
    Except Failure (List Byte × Clint) :=
  route "CLINT" (range numberOfCores stamp (delay + 2 * clockCycle))
    registerRanges trans clint

end Clint

end RiscvVp
