import RiscvVp.Device.Trace
import RiscvVp.Uart.AbstractUart

/-!
# The interrupt of the UART

The interrupt method looks at the watermarks only when it is activated.  Whoever
makes the enabled condition true has to notify the event.  A write to a control
register notifies when it lowers the watermark, which is the right direction only
for the receive watermark.
-/

namespace RiscvVp

namespace AbstractUart

open TlmMap Bits

namespace Uart

/-- The enabled interrupt condition. -/
def Condition (uart : Uart) : Prop :=
  (uart.registers ie &&& uartTxwm ≠ 0 ∧ uart.TxWatermark) ∨
    (uart.registers ie &&& uartRxwm ≠ 0 ∧ uart.RxWatermark)

instance (uart : Uart) : Decidable uart.Condition :=
  inferInstanceAs (Decidable (_ ∨ _))

/-- The interrupt method is going to be activated. -/
def Outstanding (uart : Uart) : Prop :=
  uart.asyncEvent.requested = true ∨ uart.asyncEvent.notified = true

end Uart

/-- The UART, whether the condition became true since the interrupt method was last
activated, and whether it was ever true at an activation that did not trigger the
gateway. -/
structure Watched where
  uart : Uart
  owed : Bool := false
  ignored : Bool := false

namespace Watched

def step (watched : Watched) (event : Event) : Option Watched :=
  (watched.uart.step event).map fun later =>
    match event with
    | .interrupt =>
        { uart := later
          owed := false
          ignored := watched.ignored ||
            (watched.uart.Condition ∧
              later.triggered = watched.uart.triggered) }
    | _ =>
        { uart := later
          owed := watched.owed ||
            (¬ watched.uart.Condition ∧ later.Condition)
          ignored := watched.ignored }

def Steps (watched : Watched) (event : Event) (later : Watched) : Prop :=
  watched.step event = some later

/-- After every rising edge the interrupt method is activated, or is going to be,
and each activation triggers the gateway if the condition holds. -/
def Complete (watched : Watched) : Prop :=
  (watched.owed = true → watched.uart.Outstanding) ∧ watched.ignored = false

end Watched

namespace Uart

/-- The value that is stored in a control register moves its watermark past the
number of bytes in the FIFO. -/
def Crosses (uart : Uart) (trans : Payload) (data : ℕ → Byte) (vptr : Pointer) :
    Prop :=
  (vptr = txctrl ∧ uart.registers ie &&& uartTxwm ≠ 0 ∧
      uart.txFifo.length < uartCtrlCnt (uart.stored trans data vptr)) ∨
    (vptr = rxctrl ∧ uart.registers ie &&& uartRxwm ≠ 0 ∧
      uart.rxFifo.length > uartCtrlCnt (uart.stored trans data vptr))

end Uart

/-- A write that makes the condition true announces a lower watermark, or the
interrupt method is going to be activated anyway. -/
def Notifies (watched : Watched) : Event → Prop
  | .access payload data =>
      payload.command = .write →
        ∀ r, registerBank.find payload.address = some r →
          ¬ watched.uart.Condition →
            watched.uart.Crosses payload data r.vptr →
              watched.uart.Announces data r.vptr ∨ watched.uart.Outstanding
  | _ => True

/-! ## What an access changes -/

namespace Uart

variable {uart : Uart} {trans : Payload} {data : ℕ → Byte} {vptr : Pointer}

/-- The registers that the condition depends on. -/
def Decisive (register : Pointer) : Prop :=
  register = txctrl ∨ register = rxctrl ∨ register = ie

theorem onRead_of (vptr : Pointer) (uart : Uart) :
    (∀ register, Decisive register →
      (uart.onRead vptr).registers register = uart.registers register) ∧
      (uart.onRead vptr).txFifo = uart.txFifo ∧
      (uart.onRead vptr).rxFifo.length ≤ uart.rxFifo.length ∧
      (uart.onRead vptr).asyncEvent = uart.asyncEvent := by
  have apart : ∀ register, Decisive register →
      register ≠ txdata ∧ register ≠ rxdata ∧ register ≠ ip := by
    rintro register (rfl | rfl | rfl) <;> decide
  have kept : ∀ (register prepared : Pointer) (word : Word), Decisive register →
      prepared = txdata ∨ prepared = rxdata ∨ prepared = ip →
        (uart.set prepared word).registers register = uart.registers register := by
    rintro register prepared word decisive isPrepared
    apply Function.update_of_ne
    obtain ⟨notTx, notRx, notIp⟩ := apart register decisive
    rcases isPrepared with rfl | rfl | rfl
    · exact notTx
    · exact notRx
    · exact notIp
  rw [onRead]
  split
  next =>
    exact ⟨fun register decisive => kept _ _ _ decisive (.inl rfl), rfl, Nat.le_refl _, rfl⟩
  split
  next =>
    split
    next =>
      exact ⟨fun register decisive => kept _ _ _ decisive (.inr (.inl rfl)), rfl,
        Nat.le_refl _, rfl⟩
    next front rest fifo =>
      refine ⟨fun register decisive => kept _ _ _ decisive (.inr (.inl rfl)), rfl,
        ?_, rfl⟩
      rw [fifo]
      exact Nat.le_succ _
  split
  next =>
    exact ⟨fun register decisive => kept _ _ _ decisive (.inr (.inr rfl)), rfl,
      Nat.le_refl _, rfl⟩
  next => exact ⟨fun _ _ => rfl, rfl, Nat.le_refl _, rfl⟩

/-- A read does not make the condition true. -/
theorem condition_of_onRead (condition : (uart.onRead vptr).Condition) :
    uart.Condition := by
  obtain ⟨registers, tx, rx, -⟩ := onRead_of vptr uart
  have sameIe := registers ie (.inr (.inr rfl))
  have sameTxctrl := registers txctrl (.inl rfl)
  have sameRxctrl := registers rxctrl (.inr (.inl rfl))
  simp only [Condition, TxWatermark, RxWatermark, sameIe, sameTxctrl, sameRxctrl,
    tx] at condition ⊢
  exact condition.imp_right fun received => ⟨received.1, Nat.lt_of_lt_of_le received.2 rx⟩

theorem registers_onWrite :
    (uart.onWrite trans data vptr).registers =
      Function.update uart.registers vptr (uart.stored trans data vptr) := by
  rw [onWrite]
  split <;> split <;> try (rw [pushTxdata]; split)
  all_goals rfl

theorem rxFifo_onWrite :
    (uart.onWrite trans data vptr).rxFifo = uart.rxFifo := by
  rw [onWrite]
  split <;> split <;> try (rw [pushTxdata]; split)
  all_goals rfl

theorem txFifo_onWrite (notData : vptr ≠ txdata) :
    (uart.onWrite trans data vptr).txFifo = uart.txFifo := by
  rw [onWrite]
  simp only [if_neg notData]
  split <;> rfl

theorem length_txFifo_onWrite :
    uart.txFifo.length ≤ (uart.onWrite trans data vptr).txFifo.length := by
  rw [onWrite]
  split <;> split <;> try (rw [pushTxdata]; split)
  all_goals simp [set, notify]

theorem asyncEvent_onWrite :
    (uart.onWrite trans data vptr).asyncEvent =
      if uart.Announces data vptr ∨ vptr = ie then uart.asyncEvent.notify
      else uart.asyncEvent := by
  rw [onWrite]
  split <;> split <;> try (rw [pushTxdata]; split)
  all_goals rfl

/-- A write to a control register makes the condition true when it crosses the
watermark. -/
theorem condition_onWrite_ctrl_iff (ctrl : vptr = txctrl ∨ vptr = rxctrl)
    (before : ¬ uart.Condition) :
    (uart.onWrite trans data vptr).Condition ↔ uart.Crosses trans data vptr := by
  have notData : vptr ≠ txdata := by
    rcases ctrl with rfl | rfl <;> decide
  have sameIe : (uart.onWrite trans data vptr).registers ie =
      uart.registers ie := by
    rw [registers_onWrite]
    apply Function.update_of_ne
    rcases ctrl with rfl | rfl <;> decide
  obtain ⟨txBefore, rxBefore⟩ := not_or.1 before
  simp only [Condition, TxWatermark, RxWatermark, sameIe, txFifo_onWrite notData,
    rxFifo_onWrite, Crosses]
  rcases ctrl with rfl | rfl
  · have sameRx : (uart.onWrite trans data txctrl).registers rxctrl =
        uart.registers rxctrl := by
      rw [registers_onWrite]
      exact Function.update_of_ne (by decide) _ _
    have newTx : (uart.onWrite trans data txctrl).registers txctrl =
        uart.stored trans data txctrl := by
      rw [registers_onWrite, Function.update_self]
    have notRx : txctrl ≠ rxctrl := by decide
    rw [sameRx, newTx]
    simp only [notRx, true_and, false_and, or_false]
    exact or_iff_left rxBefore
  · have sameTx : (uart.onWrite trans data rxctrl).registers txctrl =
        uart.registers txctrl := by
      rw [registers_onWrite]
      exact Function.update_of_ne (by decide) _ _
    have newRx : (uart.onWrite trans data rxctrl).registers rxctrl =
        uart.stored trans data rxctrl := by
      rw [registers_onWrite, Function.update_self]
    have notTx : rxctrl ≠ txctrl := by decide
    rw [sameTx, newRx]
    simp only [notTx, true_and, false_and, false_or]
    exact or_iff_right txBefore

/-- A write to another register than the decisive ones does not make it true. -/
theorem condition_of_onWrite (indecisive : ¬ Decisive vptr)
    (condition : (uart.onWrite trans data vptr).Condition) : uart.Condition := by
  have kept : ∀ register, Decisive register →
      (uart.onWrite trans data vptr).registers register =
        uart.registers register := by
    intro register decisive
    rw [registers_onWrite]
    apply Function.update_of_ne
    rintro rfl
    exact indecisive decisive
  simp only [Condition, TxWatermark, RxWatermark, kept ie (.inr (.inr rfl)),
    kept txctrl (.inl rfl), kept rxctrl (.inr (.inl rfl)), rxFifo_onWrite]
    at condition ⊢
  exact condition.imp_left fun sent =>
    ⟨sent.1, Nat.lt_of_le_of_lt length_txFifo_onWrite sent.2⟩

theorem outstanding_onWrite_iff :
    (uart.onWrite trans data vptr).Outstanding ↔
      (uart.Announces data vptr ∨ vptr = ie) ∨ uart.Outstanding := by
  rw [Outstanding, asyncEvent_onWrite]
  split
  next notified =>
    exact iff_of_true (.inl rfl) (.inl notified)
  next silent =>
    exact ⟨.inr, fun either => either.resolve_left silent⟩

end Uart

/-! ## Steps -/

namespace Watched

variable {watched later : Watched}

/-- The receive thread notifies after it has pushed. -/
theorem outstanding_rxpush {uart pushed : Uart} {data : Byte}
    (stepped : uart.step (.rxpush data) = some pushed) : pushed.Outstanding := by
  simp only [Uart.step, Uart.rxpush] at stepped
  split at stepped
  next => cases stepped
  next =>
    obtain rfl := Option.some.inj stepped
    exact .inl rfl

/-- The transmit thread notifies after it has popped. -/
theorem outstanding_transmit {uart popped : Uart}
    (stepped : uart.step .transmit = some popped) : popped.Outstanding := by
  simp only [Uart.step, Uart.transmit] at stepped
  split at stepped
  next => cases stepped
  split at stepped
  next => cases stepped
  next =>
    obtain rfl := Option.some.inj stepped
    exact .inl rfl

theorem outstanding_update {uart updated : Uart}
    (stepped : uart.step .update = some updated) :
    (updated.Outstanding ↔ uart.Outstanding) ∧
      (updated.Condition ↔ uart.Condition) := by
  obtain rfl := Option.some.inj stepped
  refine ⟨?_, Iff.rfl⟩
  simp [Uart.Outstanding, AsyncEvent.update]

/-- An activation triggers the gateway exactly when the condition holds. -/
theorem triggered_interrupt {uart activated : Uart}
    (stepped : uart.step .interrupt = some activated) :
    activated.triggered =
      if uart.Condition then uart.triggered + 1 else uart.triggered := by
  simp only [Uart.step, Uart.interrupt] at stepped
  split at stepped
  next =>
    obtain rfl := Option.some.inj stepped
    by_cases condition : uart.Condition
    · have trigger := condition.symm
      simp only [if_pos condition]
      refine if_pos ?_
      simpa using trigger
    · have silent := fun trigger => condition (Or.symm trigger)
      simp only [if_neg condition]
      refine if_neg ?_
      simpa using silent
  next => cases stepped

theorem step_access {uart accessed : Uart} {payload : Payload} {data : ℕ → Byte}
    (stepped : uart.step (.access payload data) = some accessed) :
    ∃ after, uart.transport payload data = .ok (accessed, after) := by
  simp only [Uart.step] at stepped
  split at stepped
  next later after transported =>
    obtain rfl := Option.some.inj stepped
    exact ⟨after, transported⟩
  next => cases stepped

/-- After a write the watch is complete exactly when the write notifies or does
not make the condition true. -/
theorem complete_onWrite_iff {payload : Payload} {data : ℕ → Byte}
    {vptr : Pointer} (owing : watched.owed = true → watched.uart.Outstanding) :
    ((watched.owed || decide (¬ watched.uart.Condition ∧
        (watched.uart.onWrite payload data vptr).Condition)) = true →
      (watched.uart.onWrite payload data vptr).Outstanding) ↔
      (¬ watched.uart.Condition → watched.uart.Crosses payload data vptr →
        watched.uart.Announces data vptr ∨ watched.uart.Outstanding) := by
  rw [Bool.or_eq_true, decide_eq_true_eq, Uart.outstanding_onWrite_iff]
  by_cases decisive : Uart.Decisive vptr
  case neg =>
    refine iff_of_true ?_ ?_
    · rintro (owed | ⟨before, condition⟩)
      · exact .inr (owing owed)
      · exact absurd (Uart.condition_of_onWrite decisive condition) before
    · rintro - (⟨isTx, -⟩ | ⟨isRx, -⟩)
      · exact absurd (.inl isTx) decisive
      · exact absurd (.inr (.inl isRx)) decisive
  rcases or_assoc.2 decisive with ctrl | isIe
  · have notIe : vptr ≠ ie := by
      rcases ctrl with rfl | rfl <;> decide
    simp only [notIe, or_false]
    constructor
    · intro complete before crosses
      exact complete (.inr ⟨before,
        (Uart.condition_onWrite_ctrl_iff ctrl before).2 crosses⟩)
    · rintro notifies (owed | ⟨before, condition⟩)
      · exact .inr (owing owed)
      · exact notifies before
          ((Uart.condition_onWrite_ctrl_iff ctrl before).1 condition)
  · refine iff_of_true (fun _ => .inl (.inr isIe)) ?_
    rintro - (⟨isTx, -⟩ | ⟨isRx, -⟩)
    · exact absurd (isIe.symm.trans isTx) (by decide)
    · exact absurd (isIe.symm.trans isRx) (by decide)

/-- One step keeps the watch complete exactly when it notifies. -/
theorem complete_step_iff (event : Event) (complete : watched.Complete)
    (stepped : Steps watched event later) :
    later.Complete ↔ Notifies watched event := by
  obtain ⟨uart, uartStepped, rfl⟩ := Option.map_eq_some_iff.1 stepped
  obtain ⟨owing, notIgnored⟩ := complete
  cases event with
  | access payload data =>
      obtain ⟨after, transported⟩ := step_access uartStepped
      obtain ⟨r, found, ⟨reads, rfl⟩ | ⟨writes, rfl⟩⟩ :=
        Uart.transport_cases transported
      · obtain ⟨-, -, -, sameEvent⟩ := Uart.onRead_of r.vptr watched.uart
        refine iff_of_true ⟨fun owed => ?_, notIgnored⟩ fun isWrite => ?_
        · rw [Bool.or_eq_true, decide_eq_true_eq] at owed
          rcases owed with owed | ⟨before, condition⟩
          · rw [Uart.Outstanding, sameEvent]
            exact owing owed
          · exact absurd (Uart.condition_of_onRead condition) before
        · rw [reads] at isWrite
          cases isWrite
      · have complete_iff := @complete_onWrite_iff watched payload data r.vptr owing
        constructor
        · rintro ⟨owed, -⟩ - other otherFound
          obtain rfl := Option.some.inj (found.symm.trans otherFound)
          exact complete_iff.1 owed
        · intro notifies
          exact ⟨complete_iff.2 (notifies writes r found), notIgnored⟩
  | rxpush data =>
      refine iff_of_true ⟨fun _ => ?_, notIgnored⟩ trivial
      exact outstanding_rxpush uartStepped
  | transmit =>
      refine iff_of_true ⟨fun _ => ?_, notIgnored⟩ trivial
      exact outstanding_transmit uartStepped
  | update =>
      obtain ⟨outstanding_iff, condition_iff⟩ := outstanding_update uartStepped
      refine iff_of_true ⟨fun owed => outstanding_iff.2 ?_, notIgnored⟩ trivial
      simp only [condition_iff, not_and_self, decide_false, Bool.or_false] at owed
      exact owing owed
  | interrupt =>
      refine iff_of_true ⟨fun owed => Bool.noConfusion owed, ?_⟩ trivial
      have triggered := triggered_interrupt uartStepped
      simp only [notIgnored, Bool.false_or, decide_eq_false_iff_not]
      rintro ⟨condition, same⟩
      rw [if_pos condition] at triggered
      omega

/-- Along every sequence of accesses, pushes, pops and activations no rising edge is
missed exactly when every write to a control register notifies. -/
theorem everyEdge_iff (events : List Event) (uart : Uart) :
    Trace.EveryState Steps Complete events { uart := uart } ↔
      Trace.EveryStep Steps Notifies events { uart := uart } :=
  @Trace.everyState_iff_everyStep _ _ Steps (fun _ => True) Complete Notifies
    (fun _ _ _ _ _ => trivial)
    (fun _ event _ _ complete stepped => complete_step_iff event complete stepped)
    events _ trivial ⟨fun owed => Bool.noConfusion owed, rfl⟩

/-- A write of one word to a register. -/
def writeWord (address : BitVec 64) (byte : ℕ → Byte) : Event :=
  .access ⟨.write, address, 4⟩ byte

/-- The transmit interrupt is enabled, and then the watermark is raised over the
empty FIFO. -/
def raiseWatermark : List Event :=
  [writeWord 0x10 fun index => if index = 0 then 1 else 0, .update, .interrupt,
    writeWord 0x8 fun index => if index = 2 then 1 else 0]

theorem not_everyEdge :
    ¬ ∀ (events : List Event) (uart : Uart),
      Trace.EveryState Steps Complete events { uart := uart } := by
  intro every
  have ends : ((raiseWatermark.foldlM step { uart := {} }).map fun watched =>
      watched.owed && !watched.uart.asyncEvent.requested &&
        !watched.uart.asyncEvent.notified) = some true := by
    decide +kernel
  obtain ⟨watched, ran, missed⟩ := Option.map_eq_some_iff.1 ends
  simp only [Bool.and_eq_true, Bool.not_eq_true'] at missed
  obtain ⟨⟨owed, notRequested⟩, notNotified⟩ := missed
  obtain ⟨owing, -⟩ := (every raiseWatermark {}).of_foldlM
    (fun _ _ _ stepped => stepped) ran
  rcases owing owed with requested | notified
  · exact Bool.noConfusion (notRequested.symm.trans requested)
  · exact Bool.noConfusion (notNotified.symm.trans notified)

end Watched

end AbstractUart

end RiscvVp
