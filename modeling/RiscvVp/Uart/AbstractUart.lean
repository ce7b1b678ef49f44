import RiscvVp.Device.RegisterBank

/-!
# The UART

`abstract_uart.cpp` and `async_event.h`: seven registers, a FIFO for each
direction with its semaphore, and an event that activates the interrupt method.
The threads of the host push received bytes and pop bytes to be sent.
-/

namespace RiscvVp

namespace AbstractUart

open TlmMap Bits

def uartTxwm : Word := 1 <<< 0

def uartRxwm : Word := 1 <<< 1

def uartFull : Word := 1 <<< 31

def uartFifoDepth : ℕ := 8

/-- `UART_CTRL_CNT` -/
def uartCtrlCnt (reg : Word) : ℕ := (reg >>> 16).toNat

/-! ## The registers -/

def txdata : Pointer := 0

def rxdata : Pointer := 1

def txctrl : Pointer := 2

def rxctrl : Pointer := 3

def ie : Pointer := 4

def ip : Pointer := 5

def div : Pointer := 6

/-- The bank that the constructor adds to the router. -/
def registerBank : RegisterMapping where
  addrToReg :=
    [{ addr := 0x0, vptr := txdata }, { addr := 0x4, vptr := rxdata },
      { addr := 0x8, vptr := txctrl }, { addr := 0xC, vptr := rxctrl },
      { addr := 0x10, vptr := ie }, { addr := 0x14, vptr := ip },
      { addr := 0x18, vptr := div }]
  distinct := by decide

/-- `AsyncEvent`.  A notification is requested, then the event is notified, and
then the method that is sensitive to it is activated. -/
structure AsyncEvent where
  requested : Bool := false
  notified : Bool := false
  deriving DecidableEq, Repr

def AsyncEvent.notify (event : AsyncEvent) : AsyncEvent :=
  { event with requested := true }

def AsyncEvent.update (event : AsyncEvent) : AsyncEvent :=
  { requested := false, notified := event.requested || event.notified }

structure Uart where
  registers : Pointer → Word := fun _ => 0
  txFifo : List Byte := []
  rxFifo : List Byte := []
  /-- the value of the semaphore of the transmit thread -/
  txfull : ℕ := 0
  /-- the value of the semaphore of the receive thread -/
  rxempty : ℕ := uartFifoDepth
  asyncEvent : AsyncEvent := {}
  /-- how often `gateway_trigger_interrupt` was called -/
  triggered : ℕ := 0

namespace Uart

def set (uart : Uart) (register : Pointer) (word : Word) : Uart :=
  { uart with registers := Function.update uart.registers register word }

def notify (uart : Uart) : Uart :=
  { uart with asyncEvent := uart.asyncEvent.notify }

/-- `tx_fifo.size() < UART_CTRL_CNT(txctrl)` -/
def TxWatermark (uart : Uart) : Prop :=
  uart.txFifo.length < uartCtrlCnt (uart.registers txctrl)

instance (uart : Uart) : Decidable uart.TxWatermark :=
  inferInstanceAs (Decidable (_ < _))

/-- `rx_fifo.size() > UART_CTRL_CNT(rxctrl)` -/
def RxWatermark (uart : Uart) : Prop :=
  uart.rxFifo.length > uartCtrlCnt (uart.registers rxctrl)

instance (uart : Uart) : Decidable uart.RxWatermark :=
  inferInstanceAs (Decidable (_ < _))

/-- What a read of a register does before the value is returned. -/
def onRead (vptr : Pointer) (uart : Uart) : Uart :=
  if vptr = txdata then
    uart.set txdata
      (if uart.txFifo.length ≥ uartFifoDepth then uartFull else 0)
  else if vptr = rxdata then
    match uart.rxFifo with
    | [] => uart.set rxdata (1 <<< 31)
    | front :: rest =>
        { uart.set rxdata (front.setWidth 32) with
          rxFifo := rest
          rxempty := uart.rxempty + 1 }
  else if vptr = ip then
    uart.set ip
      ((if uart.TxWatermark then uartTxwm else 0) |||
        (if uart.RxWatermark then uartRxwm else 0))
  else uart

/-- Whether a write to a control register lowers the watermark. -/
def lowers (access : RegisterAccess) (uart : Uart) : Bool :=
  access.write &&
    ((access.vptr = txctrl &&
        uartCtrlCnt access.nv < uartCtrlCnt (uart.registers txctrl)) ||
      (access.vptr = rxctrl &&
        uartCtrlCnt access.nv < uartCtrlCnt (uart.registers rxctrl)))

/-- A write of `txdata`, after the value is stored; it is ignored when the FIFO is
full. -/
def pushTxdata (uart : Uart) : Uart :=
  if uart.txFifo.length ≥ uartFifoDepth then uart
  else { uart with
    txFifo := uart.txFifo ++ [(uart.registers txdata).setWidth 8]
    txfull := uart.txfull + 1 }

/-- `register_access_callback`, with the memory at the data pointer. -/
def registerAccessCallback (access : RegisterAccess) (data : ℕ → Byte)
    (uart : Uart) : Except Fault (Uart × (ℕ → Byte)) := do
  let prepared := if access.read then uart.onRead access.vptr else uart
  let notify := prepared.lowers access
  let performed ← access.fn ⟨prepared.registers, data⟩
  let stored := { prepared with registers := performed.registers }
  let announced :=
    if notify || (access.write && access.vptr = ie) then stored.notify
    else stored
  return (if access.write && access.vptr = txdata then announced.pushTxdata
    else announced, performed.data)

/-- `transport`: the router has the bank as its only mapping. -/
def transport (trans : Payload) (data : ℕ → Byte) (uart : Uart) :
    Except Fault (Uart × (ℕ → Byte)) := do
  match ← registerBank.access trans ⟨uart.registers, data⟩ with
  | none => .error (.unmappedAddress "UART" trans.address)
  | some access => uart.registerAccessCallback access data

/-- `rxpush`, which waits for a free place. -/
def rxpush (data : Byte) (uart : Uart) : Option Uart :=
  if uart.rxempty = 0 then none
  else some { uart with
    rxempty := uart.rxempty - 1
    rxFifo := uart.rxFifo ++ [data] }.notify

/-- A round of `transmit`, which waits for a byte. -/
def transmit (uart : Uart) : Option Uart :=
  if uart.txfull = 0 then none
  else match uart.txFifo with
    | [] => none
    | _ :: rest => some { uart with
        txfull := uart.txfull - 1
        txFifo := rest }.notify

/-- `interrupt`, once the event is notified. -/
def interrupt (uart : Uart) : Option Uart :=
  if uart.asyncEvent.notified then
    let trigger :=
      (uart.registers ie &&& uartRxwm ≠ 0 && uart.RxWatermark) ||
        (uart.registers ie &&& uartTxwm ≠ 0 && uart.TxWatermark)
    some { uart with
      asyncEvent := { uart.asyncEvent with notified := false }
      triggered := if trigger then uart.triggered + 1 else uart.triggered }
  else none

end Uart

/-- What happens to the UART. -/
inductive Event : Type
  /-- The guest accesses a register. -/
  | access (trans : Payload) (data : ℕ → Byte)
  | rxpush (data : Byte)
  | transmit
  /-- The update phase of the simulation kernel. -/
  | update
  | interrupt

namespace Uart

def step (uart : Uart) : Event → Option Uart
  | .access payload data =>
      match uart.transport payload data with
      | .ok (later, _) => some later
      | .error _ => none
  | .rxpush data => uart.rxpush data
  | .transmit => uart.transmit
  | .update => some { uart with asyncEvent := uart.asyncEvent.update }
  | .interrupt => uart.interrupt

/-! ## Register accesses -/

/-- All registers can be read and written as a whole. -/
theorem find_registerBank {address : BitVec 64} {r : RegMapping}
    (found : registerBank.find address = some r) :
    r.mode = {} ∧ r.mask = 0xffffffff := by
  have member := List.mem_of_find?_eq_some found
  simp only [registerBank, List.mem_cons, List.not_mem_nil, or_false] at member
  rcases member with rfl | rfl | rfl | rfl | rfl | rfl | rfl <;> exact ⟨rfl, rfl⟩

/-- The value that a write stores in a register. -/
def stored (uart : Uart) (trans : Payload) (data : ℕ → Byte) (vptr : Pointer) :
    Word :=
  written trans (uart.registers vptr) data

/-- Whether a write lowers the watermark of the register, by the value that it
announces. -/
def Announces (uart : Uart) (data : ℕ → Byte) (vptr : Pointer) : Prop :=
  (vptr = txctrl ∨ vptr = rxctrl) ∧
    uartCtrlCnt (ofBytes 4 data) < uartCtrlCnt (uart.registers vptr)

instance (uart : Uart) (data : ℕ → Byte) (vptr : Pointer) :
    Decidable (uart.Announces data vptr) :=
  inferInstanceAs (Decidable (_ ∧ _))

/-- What a write leaves. -/
def onWrite (trans : Payload) (data : ℕ → Byte) (vptr : Pointer) (uart : Uart) :
    Uart :=
  let written := uart.set vptr (uart.stored trans data vptr)
  let announced :=
    if uart.Announces data vptr ∨ vptr = ie then written.notify else written
  if vptr = txdata then announced.pushTxdata else announced

theorem callback_read {uart : Uart} {trans : Payload} {data : ℕ → Byte}
    {r : RegMapping} {access : RegisterAccess} (reads : trans.command = .read)
    (allowed : r.mode.allows trans.command)
    (isRead : access.read = true) (noWrite : access.write = false)
    (vptr : access.vptr = r.vptr) (fn : access.fn = r.fn trans) :
    (uart.registerAccessCallback access data).map Prod.fst =
      .ok (uart.onRead r.vptr) := by
  simp only [registerAccessCallback, isRead, noWrite, if_true, lowers,
    Bool.false_and, Bool.or_false, Bool.false_eq_true, if_false, fn, vptr,
    fn_read reads allowed]
  rfl

theorem callback_write {uart : Uart} {trans : Payload} {data : ℕ → Byte}
    {r : RegMapping} {access : RegisterAccess} (writes : trans.command = .write)
    (allowed : r.mode.allows trans.command) (whole : r.mask = 0xffffffff)
    (noRead : access.read = false) (isWrite : access.write = true)
    (nv : access.nv = ofBytes 4 data)
    (vptr : access.vptr = r.vptr) (fn : access.fn = r.fn trans) :
    (uart.registerAccessCallback access data).map Prod.fst =
      .ok (uart.onWrite trans data r.vptr) := by
  have performed : access.fn ⟨uart.registers, data⟩ =
      .ok ⟨Function.update uart.registers r.vptr
        (uart.stored trans data r.vptr), data⟩ := by
    have unmasked : uart.stored trans data r.vptr &&& 0xffffffff =
        uart.stored trans data r.vptr := BitVec.and_allOnes
    rw [fn, fn_write writes allowed, whole]
    simp only [RegMapping.value]
    change Except.ok (State.mk (Function.update _ _
      (uart.stored trans data r.vptr &&& 0xffffffff)) _) = _
    rw [unmasked]
  have announces : uart.lowers access = decide (uart.Announces data r.vptr) := by
    rw [lowers, isWrite, vptr, nv, Bool.true_and]
    rw [← Bool.decide_and, ← Bool.decide_and, ← Bool.decide_or, decide_eq_decide]
    constructor
    · rintro (⟨isTx, less⟩ | ⟨isRx, less⟩)
      · exact ⟨.inl isTx, isTx ▸ less⟩
      · exact ⟨.inr isRx, isRx ▸ less⟩
    · rintro ⟨isTx | isRx, less⟩
      · exact .inl ⟨isTx, isTx ▸ less⟩
      · exact .inr ⟨isRx, isRx ▸ less⟩
  simp only [registerAccessCallback, noRead, isWrite, Bool.false_eq_true, if_false,
    announces, vptr, performed, Bool.true_and, onWrite, set, Bool.or_eq_true,
    decide_eq_true_eq]
  rfl

/-- What an access that passes the assertions does. -/
theorem transport_cases {uart later : Uart} {trans : Payload}
    {data after : ℕ → Byte}
    (transported : uart.transport trans data = .ok (later, after)) :
    ∃ r, registerBank.find trans.address = some r ∧
      ((trans.command = .read ∧ later = uart.onRead r.vptr) ∨
        (trans.command = .write ∧ later = uart.onWrite trans data r.vptr)) := by
  rw [transport] at transported
  cases accessed : registerBank.access trans ⟨uart.registers, data⟩ with
  | error fault => rw [accessed] at transported; cases transported
  | ok given =>
      rw [accessed] at transported
      cases given with
      | none => cases transported
      | some access =>
          obtain ⟨r, found, allowed, command, rfl⟩ := access_some accessed
          have called := congrArg (Except.map Prod.fst) transported
          change (registerAccessCallback _ data uart).map Prod.fst = _ at called
          refine ⟨r, found, ?_⟩
          rcases command with reads | writes
          · rw [callback_read reads allowed (decide_eq_true reads)
              (by simp [reads]) rfl rfl] at called
            exact .inl ⟨reads, (Except.ok.inj called).symm⟩
          · rw [callback_write writes allowed (find_registerBank found).2
              (by simp [writes]) (decide_eq_true writes)
              (if_pos writes) rfl rfl] at called
            exact .inr ⟨writes, (Except.ok.inj called).symm⟩

end Uart

end AbstractUart

end RiscvVp
