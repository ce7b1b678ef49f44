import RiscvVp.Fu540Plic.Selection

/-!
# The FE310 interrupt controller

`platform/common/fe310_plic.h`, for any parameters of the template that its
static assertions and its arrays allow.  The gateways set pending bits and
notify the `run` thread; the harts reach the registers through `transport`.

The clock delays are left out: the thread may run at any time after a
notification.  An index outside an array is the end of the simulation, as a
failed assertion is.
-/

namespace RiscvVp

namespace Fe310Plic

open Device

/-- The parameters of the template. -/
structure Parameters : Type where
  numberCores : ℕ
  numberInterrupts : ℕ
  numberInterruptEntries : ℕ
  maxPriority : Word
  /-- The arrays are not empty. -/
  cores : 0 < numberCores
  /-- There is a bit for every interrupt. -/
  entries : numberInterrupts ≤ 32 * numberInterruptEntries
  interrupts : 0 < numberInterrupts

/-- `FE310_PLIC<1, 53, 64, 7>` of the `hifive` platform. -/
def Parameters.hifive : Parameters where
  numberCores := 1
  numberInterrupts := 53
  numberInterruptEntries := 64
  maxPriority := 7
  cores := by decide
  entries := by decide
  interrupts := by decide

structure Plic : Type where
  interruptPriorities : Storage
  pendingInterrupts : Storage
  hartEnabledInterrupts : Storage
  hartConfig : Storage
  hartEip : ℕ → Bool
  /-- The external interrupt that each target last saw triggered or cleared. -/
  line : ℕ → Bool
  /-- A notification of `e_run` is outstanding. -/
  notified : Bool

section Controller

variable (parameters : Parameters)

/-- The constructor. -/
def Plic.reset : Plic where
  interruptPriorities :=
    (List.range parameters.numberInterrupts).foldl
      (fun mem i => mem.setWord i 1) .zeroed
  pendingInterrupts := .zeroed
  hartEnabledInterrupts := .zeroed
  hartConfig := .zeroed
  hartEip := fun _ => false
  line := fun _ => false
  notified := false

/-- The bit of an interrupt in a word of 32 of them. -/
def hasBit (word : Word) (irq : ℕ) : Bool :=
  word &&& 1#32 <<< (irq % 32) != 0

namespace Plic

variable (plic : Plic)

/-- `hart_enabled_interrupts(hart, irq / 32)`: the view has rows of one
element. -/
def enabled (hart irq : ℕ) : Bool :=
  hasBit (plic.hartEnabledInterrupts.word (hart * 1 + irq / 32)) irq

def pending (irq : ℕ) : Bool :=
  hasBit (plic.pendingInterrupts.word (irq / 32)) irq

def priority (irq : ℕ) : ℕ :=
  (plic.interruptPriorities.word irq).toNat

/-- `hart_config[hart].priority_threshold` -/
def threshold (hart : ℕ) : ℕ :=
  (plic.hartConfig.word (2 * hart)).toNat

def gatewayTriggerInterrupt (irqId : ℕ) : Except Failure Plic := do
  assert (0 < irqId && irqId < parameters.numberInterrupts)
  let idx := irqId / 32
  let off := irqId % 32
  assert (idx < parameters.numberInterruptEntries)
  return { plic with
    pendingInterrupts := plic.pendingInterrupts.setWord idx
      (plic.pendingInterrupts.word idx ||| 1#32 <<< off)
    notified := true }

def clearPendingInterrupt (irqId : ℕ) : Except Failure Plic := do
  assert (irqId < parameters.numberInterrupts)
  let idx := irqId / 32
  let off := irqId % 32
  assert (idx < parameters.numberInterruptEntries)
  return { plic with
    pendingInterrupts := plic.pendingInterrupts.setWord idx
      (plic.pendingInterrupts.word idx &&& ~~~(1#32 <<< off)) }

/-- The body of the loop of `hart_get_next_pending_interrupt`, on `min_id` and
`max_priority`. -/
def considerInterrupt (hart : ℕ) (considerThreshold : Bool) (best : ℕ × ℕ)
    (i : ℕ) : Except Failure (ℕ × ℕ) := do
  if plic.enabled hart i && plic.pending i then
    assert (i < parameters.numberInterrupts + 1)
    let prio := plic.priority i
    if 0 < prio then
      if considerThreshold then assert (hart < parameters.numberCores)
      if !considerThreshold || decide (plic.threshold hart < prio) then
        if best.2 < prio then return (i, prio)
  return best

def hartGetNextPendingInterrupt (hart : ℕ) (considerThreshold : Bool) :
    Except Failure ℕ := do
  let best ← (List.range' 1 (parameters.numberInterrupts - 1)).foldlM
    (plic.considerInterrupt parameters hart considerThreshold) (0, 0)
  return best.1

def hartHasPendingEnabledInterrupts (hart : ℕ) : Except Failure Bool := do
  return 0 < (← plic.hartGetNextPendingInterrupt parameters hart true)

/-- `target_harts[hart]->trigger_external_interrupt(irq_level)`, or the
clearing of it. -/
def setLine (hart : ℕ) (value : Bool) : Plic :=
  { plic with line := Function.update plic.line hart value }

def setEip (hart : ℕ) (value : Bool) : Plic :=
  { plic with hartEip := Function.update plic.hartEip hart value }

/-- The body of the loop of `run`. -/
def serveHart (hart : ℕ) : Except Failure Plic := do
  if !plic.hartEip hart then
    if ← plic.hartHasPendingEnabledInterrupts parameters hart then
      return (plic.setEip hart true).setLine hart true
  return plic

/-- One turn of the `run` thread, from its `wait` to the next. -/
def run : Except Failure Plic :=
  (List.range parameters.numberCores).foldlM
    (fun plic hart => plic.serveHart parameters hart)
    { plic with notified := false }

end Plic

/-- The loop over the priorities; the view's `end` is its last element. -/
def postWriteInterruptPriorities (plic : Plic) : Plic :=
  { plic with
    interruptPriorities :=
      (List.range parameters.numberInterrupts).foldl
        (fun mem i => mem.setWord i
          (if parameters.maxPriority < mem.word i then parameters.maxPriority
            else mem.word i))
        plic.interruptPriorities }

/-- The hart whose configuration `--idx` leads to. -/
def configIndex (addr : ℕ) : ℕ :=
  addr / 4 - 1

def isClaimResponse (addr : ℕ) : Bool :=
  addr / 4 % 2 == 1

def preReadHartConfig (info : AccessInfo) (plic : Plic) :
    Except Failure (Bool × Plic) := do
  assert (info.addr % 4 = 0)
  if isClaimResponse info.addr then
    assert (info.size = 4)
    let idx := configIndex info.addr
    let minId ← plic.hartGetNextPendingInterrupt parameters 0 false
    assert (idx < parameters.numberCores)
    let plic := { plic with
      hartConfig :=
        plic.hartConfig.setWord (2 * idx + 1) (BitVec.ofNat 32 minId) }
    return (true, ← plic.clearPendingInterrupt parameters minId)
  return (true, plic)

def postWriteHartConfig (info : AccessInfo) (plic : Plic) :
    Except Failure Plic := do
  assert (info.addr % 4 = 0)
  if isClaimResponse info.addr then
    assert (info.size = 4)
    let idx := configIndex info.addr
    let hasPending ← plic.hartHasPendingEnabledInterrupts parameters idx
    assert (idx < parameters.numberCores)
    if hasPending then
      assert (plic.hartEip idx)
      return plic.setLine idx true
    else
      return (plic.setEip idx false).setLine idx false
  return plic

/-- The register ranges, in the order of `register_ranges`. -/
inductive Register : Type
  | interruptPriorities
  | pendingInterrupts
  | hartEnabledInterrupts
  | hartConfig
  deriving DecidableEq, Repr

def Register.range : Register → RegisterRange Plic
  | .interruptPriorities =>
      { start := 0x0
        size := 4 * (parameters.numberInterrupts + 1)
        mem := Plic.interruptPriorities
        setMem := fun mem plic => { plic with interruptPriorities := mem }
        postWriteCallback := fun _ plic =>
          .ok (postWriteInterruptPriorities parameters plic) }
  | .pendingInterrupts =>
      { start := 0x1000
        size := 4 * parameters.numberInterruptEntries
        readonly := true
        mem := Plic.pendingInterrupts
        setMem := fun mem plic => { plic with pendingInterrupts := mem } }
  | .hartEnabledInterrupts =>
      { start := 0x2000
        size := 4 * parameters.numberInterruptEntries * parameters.numberCores
        mem := Plic.hartEnabledInterrupts
        setMem := fun mem plic => { plic with hartEnabledInterrupts := mem } }
  | .hartConfig =>
      { start := 0x200000
        size := 8 * parameters.numberCores
        alignment := 4
        mem := Plic.hartConfig
        setMem := fun mem plic => { plic with hartConfig := mem }
        preReadCallback := preReadHartConfig parameters
        postWriteCallback := postWriteHartConfig parameters }

def registerRanges : List Register :=
  [.interruptPriorities, .pendingInterrupts, .hartEnabledInterrupts, .hartConfig]

def transport (trans : Transaction) (plic : Plic) :
    Except Failure (List Byte × Plic) :=
  route "FE310_PLIC" (Register.range parameters) registerRanges trans plic

inductive Event : Type
  | trigger (irq : ℕ)
  | transport (transaction : Transaction)
  | wake
  deriving DecidableEq, Repr

/-- What one event does.  The thread stays asleep while nothing notifies it. -/
def step (event : Event) (plic : Plic) : Except Failure (List Byte × Plic) :=
  match event with
  | .trigger irq => do
      return ([], ← plic.gatewayTriggerInterrupt parameters irq)
  | .transport transaction => Fe310Plic.transport parameters transaction plic
  | .wake =>
      if plic.notified then do return ([], ← plic.run parameters)
      else .ok ([], plic)

end Controller

end Fe310Plic

end RiscvVp
