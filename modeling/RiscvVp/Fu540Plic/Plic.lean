import Mathlib.Logic.Function.Basic
import RiscvVp.Device.RegisterRange

/-!
# The FU540 interrupt controller

`platform/common/fu540_plic.cpp`.  The gateways set pending bits and notify
the `run` thread; the harts reach the registers through `transport`.

Hart 0 has a machine-mode context only, every other hart has one for machine
mode and one for supervisor mode.  Only these two levels are ever passed, so
the branches for other levels do not occur.  The clock delays are left out:
the thread may run at any time after a notification.
-/

namespace RiscvVp

namespace Fu540Plic

open Device

def numIrq : ℕ := 53

def maxThr : Word := 7

def maxPrio : Word := 7

def enableBase : ℕ := 0x2000

def enablePerHart : ℕ := 0x80

def contextBase : ℕ := 0x200000

def contextPerHart : ℕ := 0x1000

def hartRegSize : ℕ := 8

inductive Level : Type
  | machine
  | supervisor
  deriving DecidableEq, Repr

structure Context : Type where
  hart : ℕ
  level : Level
  deriving DecidableEq, Repr

/-- `hart == 0 && level == SupervisorMode`. -/
def Context.isMissing (context : Context) : Bool :=
  context.hart == 0 && context.level == .supervisor

/-- The place of a context in the order in which `create_hart_regs` adds its
registers. -/
def Context.index (context : Context) : ℕ :=
  match context.hart, context.level with
  | 0, _ => 0
  | hart + 1, .machine => 2 * hart + 1
  | hart + 1, .supervisor => 2 * hart + 2

/-- The contexts of one hart, as the body of the loop adds them. -/
def hartContexts : ℕ → List Context
  | 0 => [⟨0, .machine⟩]
  | hart + 1 => [⟨hart + 1, .machine⟩, ⟨hart + 1, .supervisor⟩]

def contexts (harts : ℕ) : List Context :=
  (List.range harts).flatMap hartContexts

/-- The addresses of one `create_hart_regs` loop, from the running `addr`. -/
def createHartRegs (inc : ℕ) : ℕ → List Context → List (Context × ℕ)
  | _, [] => []
  | addr, context :: rest =>
      (context, addr) :: createHartRegs inc (addr + inc) rest

structure Plic : Type where
  interruptPriorities : Storage
  pendingInterrupts : Storage
  enabledIrqs : Context → Storage
  hartContext : Context → Storage
  /-- The external interrupt that each target last saw triggered or cleared. -/
  line : Context → Bool
  /-- A notification of `e_run` is outstanding. -/
  notified : Bool

/-- The constructor. -/
def Plic.reset : Plic where
  interruptPriorities := .zeroed
  pendingInterrupts := .zeroed
  enabledIrqs := fun _ => .zeroed
  hartContext := fun _ => .zeroed
  line := fun _ => false
  notified := false

/-- `GET_IDX`. -/
def getIdx (irq : ℕ) : ℕ :=
  irq / 32

/-- `GET_OFF`. -/
def getOff (irq : ℕ) : Word :=
  1#32 <<< (irq % 32)

/-- `operator[]` of an `ArrayView<uint32_t>` over `size` bytes. -/
def element (mem : Storage) (size index : ℕ) : Except Failure Word := do
  assert (index < size / 4)
  return mem.word index

namespace Plic

variable (plic : Plic)

/-- `HartConfig::is_enabled`. -/
def isEnabled (context : Context) (irq : ℕ) : Except Failure Bool := do
  assert (0 < irq && irq ≤ numIrq)
  let enabled ← element (plic.enabledIrqs context) hartRegSize (getIdx irq)
  return enabled &&& getOff irq != 0#32

def isPending (irq : ℕ) : Except Failure Bool := do
  assert (0 < irq && irq ≤ numIrq)
  let pending ← element plic.pendingInterrupts 8 (getIdx irq)
  return pending &&& getOff irq != 0#32

def clearPending (irq : ℕ) : Except Failure Plic := do
  assert (0 < irq && irq ≤ numIrq)
  let pending ← element plic.pendingInterrupts 8 (getIdx irq)
  return { plic with
    pendingInterrupts :=
      plic.pendingInterrupts.setWord (getIdx irq) (pending &&& ~~~getOff irq) }

def getThreshold (context : Context) : Except Failure Word :=
  if context.isMissing then
    .error (.invalidArgument "hart0 doesn't support SupervisorMode")
  else element (plic.hartContext context) hartRegSize 0

/-- The body of the loop of `next_pending_irq`, on `selirq` and `maxpri`. -/
def considerIrq (context : Context) (ignth : Bool) (best : ℕ × ℕ) (irq : ℕ) :
    Except Failure (ℕ × ℕ) := do
  if !(← plic.isEnabled context irq) || !(← plic.isPending irq) then
    return best
  let prio ← element plic.interruptPriorities (4 * numIrq) irq
  if !ignth && decide (prio.toNat < (← plic.getThreshold context).toNat) then
    return best
  return if best.2 < prio.toNat then (irq, prio.toNat) else best

def nextPendingIrq (context : Context) (ignth : Bool) : Except Failure ℕ := do
  assert !context.isMissing
  let best ← (List.range' 1 numIrq).foldlM (plic.considerIrq context ignth) (0, 0)
  return best.1

def hasPendingIrq (hart : ℕ) : Except Failure (Option Level) := do
  let supervisor ←
    if hart ≠ 0 then plic.nextPendingIrq ⟨hart, .supervisor⟩ false else pure 0
  if hart ≠ 0 ∧ 0 < supervisor then
    return some .supervisor
  let machine ← plic.nextPendingIrq ⟨hart, .machine⟩ false
  return if 0 < machine then some .machine else none

/-- `target_harts[hart]->trigger_external_interrupt(level)`, or the clearing of
it. -/
def setLine (context : Context) (value : Bool) : Plic :=
  { plic with line := Function.update plic.line context value }

/-- The body of the loop of `run`. -/
def serveHart (hart : ℕ) : Except Failure Plic := do
  match ← plic.hasPendingIrq hart with
  | some level => return plic.setLine ⟨hart, level⟩ true
  | none => return plic

/-- One turn of the `run` thread, from its `wait` to the next. -/
def run (harts : ℕ) : Except Failure Plic :=
  (List.range harts).foldlM serveHart { plic with notified := false }

def gatewayTriggerInterrupt (irq : Word) : Except Failure Plic := do
  if irq = 0#32 ∨ numIrq < irq.toNat then
    .error (.invalidArgument "IRQ value is invalid")
  else
    let pending ← element plic.pendingInterrupts 8 (getIdx irq.toNat)
    return { plic with
      pendingInterrupts :=
        plic.pendingInterrupts.setWord (getIdx irq.toNat)
          (pending ||| getOff irq.toNat)
      notified := true }

end Plic

/-- `is_claim_access`. -/
def isClaimAccess (addr : ℕ) : Bool :=
  addr / 4 % 2 == 1

def readHartctx (context : Context) (info : AccessInfo) (plic : Plic) :
    Except Failure (Bool × Plic) := do
  assert (info.addr % 4 = 0)
  assert (info.size = 4)
  if isClaimAccess info.addr then
    let irq ← plic.nextPendingIrq context true
    let plic := { plic with
      hartContext := Function.update plic.hartContext context
        ((plic.hartContext context).setWord 1 (BitVec.ofNat 32 irq)) }
    let plic ← if irq ≠ 0 then plic.clearPending irq else pure plic
    return (true, plic)
  return (true, plic)

def writeHartctx (context : Context) (info : AccessInfo) (plic : Plic) :
    Except Failure Plic := do
  assert (info.addr % 4 = 0)
  assert (info.size = 4)
  if isClaimAccess info.addr then
    return plic.setLine context false
  else
    let threshold := (plic.hartContext context).word 0
    return { plic with
      hartContext := Function.update plic.hartContext context
        ((plic.hartContext context).setWord 0
          (if maxThr < threshold then maxThr else threshold)) }

def writeIrqPrios (info : AccessInfo) (plic : Plic) : Except Failure Plic := do
  let idx := info.addr / 4
  assert (idx ≤ numIrq)
  let elem ← element plic.interruptPriorities (4 * numIrq) idx
  return { plic with
    interruptPriorities := plic.interruptPriorities.setWord idx
      (if maxPrio < elem then maxPrio else elem) }

/-- The register ranges that the constructor creates. -/
inductive Register : Type
  | priorities
  | pending
  | enable (context : Context)
  | context (context : Context)
  deriving DecidableEq, Repr

def Register.range : Register → RegisterRange Plic
  | .priorities =>
      { start := 0x4
        size := 4 * numIrq
        alignment := 4
        mem := Plic.interruptPriorities
        setMem := fun mem plic => { plic with interruptPriorities := mem }
        postWriteCallback := writeIrqPrios }
  | .pending =>
      { start := 0x1000
        size := 8
        alignment := 4
        mem := Plic.pendingInterrupts
        setMem := fun mem plic => { plic with pendingInterrupts := mem }
        -- make pending interrupts read-only
        preWriteCallback := fun _ plic => .ok (false, plic) }
  | .enable owner =>
      { start := enableBase + enablePerHart * owner.index
        size := hartRegSize
        alignment := 4
        mem := fun plic => plic.enabledIrqs owner
        setMem := fun mem plic =>
          { plic with enabledIrqs := Function.update plic.enabledIrqs owner mem } }
  | .context owner =>
      { start := contextBase + contextPerHart * owner.index
        size := hartRegSize
        alignment := 4
        mem := fun plic => plic.hartContext owner
        setMem := fun mem plic =>
          { plic with hartContext := Function.update plic.hartContext owner mem }
        preReadCallback := readHartctx owner
        postWriteCallback := writeHartctx owner }

/-- `register_ranges`, in the order in which the constructor fills it. -/
def registers (harts : ℕ) : List Register :=
  [.priorities, .pending] ++ (contexts harts).map .enable ++
    (contexts harts).map .context

def transport (harts : ℕ) (trans : Transaction) (plic : Plic) :
    Except Failure (List Byte × Plic) :=
  route "FU540_PLIC" Register.range (registers harts) trans plic

inductive Event : Type
  | trigger (irq : Word)
  | transport (transaction : Transaction)
  | wake
  deriving DecidableEq, Repr

/-- What one event does.  The thread stays asleep while nothing notifies it. -/
def step (harts : ℕ) (event : Event) (plic : Plic) :
    Except Failure (List Byte × Plic) :=
  match event with
  | .trigger irq => do return ([], ← plic.gatewayTriggerInterrupt irq)
  | .transport transaction => Fu540Plic.transport harts transaction plic
  | .wake =>
      if plic.notified then do return ([], ← plic.run harts)
      else .ok ([], plic)

end Fu540Plic

end RiscvVp
