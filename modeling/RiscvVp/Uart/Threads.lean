import RiscvVp.Uart.AbstractUart

/-!
# The threads of the UART

The receive thread, the transmit thread and the simulation share the two FIFOs.
Each takes a step between two operations on a mutex or a semaphore.  The
simulation serves the accesses of the guest one at a time, runs the interrupt
method, and updates the event.
-/

namespace RiscvVp

namespace AbstractUart

open TlmMap Bits

inductive Thread : Type
  | receive
  | transmit
  | simulation
  deriving DecidableEq, Repr

/-- Where the receive thread is in `rxpush`. -/
inductive ReceivePc : Type
  | idle
  /-- `swait(&rxempty)` has returned. -/
  | waited (data : Byte)
  | locked (data : Byte)
  | pushed
  | unlocked
  deriving DecidableEq, Repr

/-- Where the transmit thread is in the loop of `transmit`. -/
inductive TransmitPc : Type
  | idle
  /-- `swait(&txfull)` has returned. -/
  | waited
  | locked
  | popped (data : Byte)
  | unlocked (data : Byte)
  /-- The event is notified, `write_data` comes next. -/
  | sending (data : Byte)
  | stopped
  deriving DecidableEq, Repr

/-- Where the simulation is in `register_access_callback` or `interrupt`. -/
inductive SimulationPc : Type
  | idle
  /-- A read of `txdata`. -/
  | txdataLock
  | txdataLocked
  | txdataDone
  /-- A read of `rxdata`. -/
  | rxdataLock
  | rxdataLocked
  /-- The byte is popped, `spost(&rxempty)` comes next. -/
  | rxdataPopped (front : Byte)
  | rxdataDone (taken : Option Byte)
  /-- `fn` comes next. -/
  | rxdataUnlocked (taken : Option Byte)
  /-- A read of `ip`. -/
  | ipTxLock
  | ipTxLocked
  | ipTxDone (ret : Word)
  | ipRxLock (ret : Word)
  | ipRxLocked (ret : Word)
  | ipRxDone (ret : Word)
  /-- `fn` comes next in a read of `txdata` or `ip`. -/
  | unlocked
  /-- A write of `txdata`, after `fn`. -/
  | pushLock
  | pushLocked
  /-- The FIFO is full. -/
  | pushIgnored
  | pushDone
  /-- `spost(&txfull)` comes next. -/
  | pushUnlocked
  /-- `interrupt`, which looks at the received bytes first. -/
  | interruptRxLock
  | interruptRxLocked
  | interruptRxDone (trigger : Bool)
  | interruptTx (trigger : Bool)
  | interruptTxLocked (trigger : Bool)
  | interruptTxDone (trigger : Bool)
  deriving DecidableEq, Repr

/-- What the simulation does next when it is idle. -/
inductive Call : Type
  | access (payload : Payload) (data : ℕ → Byte)
  | update
  | interrupt

/-- A read of `rxdata` that has returned. -/
structure Reading where
  /-- the address, from that of the register -/
  offset : ℕ
  /-- the byte that it took from the FIFO -/
  taken : Option Byte
  /-- the bytes that it returned -/
  data : List Byte
  deriving DecidableEq, Repr

structure Threads where
  uart : Uart := {}
  rcvmtx : Option Thread := none
  txmtx : Option Thread := none
  receive : ReceivePc := .idle
  transmit : TransmitPc := .idle
  simulation : SimulationPc := .idle
  /-- the access that the simulation serves, its `fn`, and the memory at its data
  pointer -/
  payload : Payload := ⟨.ignore, 0, 0⟩
  fn : State → Except Fault State := .ok
  data : ℕ → Byte := fun _ => 0
  stop : Bool := false
  /-- A byte was popped from an empty FIFO. -/
  underflow : Bool := false
  /-- the bytes that were pushed to the receive FIFO -/
  pushed : List Byte := []
  /-- the reads of `rxdata` -/
  readings : List Reading := []
  /-- the bytes that were accepted by the transmit FIFO -/
  written : List Byte := []
  /-- what `write_data` was called with -/
  sent : List Byte := []

namespace Threads

def lockRcv (thread : Thread) (threads : Threads) : Option Threads :=
  if threads.rcvmtx = none then some { threads with rcvmtx := some thread }
  else none

def lockTx (thread : Thread) (threads : Threads) : Option Threads :=
  if threads.txmtx = none then some { threads with txmtx := some thread }
  else none

def unlockRcv (threads : Threads) : Threads := { threads with rcvmtx := none }

def unlockTx (threads : Threads) : Threads := { threads with txmtx := none }

def goto (pc : SimulationPc) (threads : Threads) : Threads :=
  { threads with simulation := pc }

/-! ## The receive thread -/

/-- A step of the receive thread; `data` is what it is to push when it is idle. -/
def stepReceive (data : Byte) (threads : Threads) : Option Threads :=
  match threads.receive with
  | .idle =>
      if threads.uart.rxempty = 0 then none
      else some { threads with
        uart := { threads.uart with rxempty := threads.uart.rxempty - 1 }
        receive := .waited data }
  | .waited data =>
      (threads.lockRcv .receive).map fun threads =>
        { threads with receive := .locked data }
  | .locked data => some { threads with
      uart := { threads.uart with rxFifo := threads.uart.rxFifo ++ [data] }
      pushed := threads.pushed ++ [data]
      receive := .pushed }
  | .pushed => some { threads.unlockRcv with receive := .unlocked }
  | .unlocked => some { threads with
      uart := threads.uart.notify
      receive := .idle }

/-! ## The transmit thread -/

def stepTransmit (threads : Threads) : Option Threads :=
  match threads.transmit with
  | .idle =>
      if threads.stop then some { threads with transmit := .stopped }
      else if threads.uart.txfull = 0 then none
      else some { threads with
        uart := { threads.uart with txfull := threads.uart.txfull - 1 }
        transmit := .waited }
  | .waited =>
      if threads.stop then some { threads with transmit := .stopped }
      else (threads.lockTx .transmit).map fun threads =>
        { threads with transmit := .locked }
  | .locked =>
      match threads.uart.txFifo with
      | [] => some { threads with underflow := true, transmit := .popped 0 }
      | front :: rest => some { threads with
          uart := { threads.uart with txFifo := rest }
          transmit := .popped front }
  | .popped data => some { threads.unlockTx with transmit := .unlocked data }
  | .unlocked data => some { threads with
      uart := threads.uart.notify
      transmit := .sending data }
  | .sending data => some { threads with
      sent := threads.sent ++ [data]
      transmit := .idle }
  | .stopped => none

/-! ## The simulation -/

/-- `fn` performs the access on the registers and the memory of the host. -/
def perform (threads : Threads) : Option Threads :=
  match threads.fn ⟨threads.uart.registers, threads.data⟩ with
  | .error _ => none
  | .ok performed => some { threads with
      uart := { threads.uart with registers := performed.registers }
      data := performed.data }

/-- `register_access_callback` up to its first operation on a mutex. -/
def startAccess (access : RegisterAccess) (threads : Threads) : Option Threads :=
  if access.vptr = txdata then some (threads.goto .txdataLock)
  else if access.vptr = rxdata then some (threads.goto .rxdataLock)
  else if access.vptr = ip then some (threads.goto .ipTxLock)
  else threads.perform

/-- A write stores its value, notifies, and goes on to push the value when it is for
`txdata`. -/
def startWrite (access : RegisterAccess) (threads : Threads) : Option Threads :=
  threads.perform.map fun performed =>
    let written :=
      if threads.uart.lowers access || access.vptr = ie then
        { performed with uart := performed.uart.notify }
      else performed
    if access.vptr = txdata then written.goto .pushLock else written

def start (call : Call) (threads : Threads) : Option Threads :=
  match call with
  | .access payload data =>
      match registerBank.access payload ⟨threads.uart.registers, data⟩ with
      | .error _ => none
      | .ok none => none
      | .ok (some access) =>
          let served :=
            { threads with payload := payload, fn := access.fn, data := data }
          if access.write then served.startWrite access
          else served.startAccess access
  | .update => some { threads with
      uart := { threads.uart with asyncEvent := threads.uart.asyncEvent.update } }
  | .interrupt =>
      if threads.uart.asyncEvent.notified then
        let activated := { threads with
          uart := { threads.uart with
            asyncEvent := { threads.uart.asyncEvent with notified := false } } }
        some (if threads.uart.registers ie &&& uartRxwm ≠ 0 then
            activated.goto .interruptRxLock
          else activated.goto (.interruptTx false))
      else none

/-- The bytes that the access has returned. -/
def returned (threads : Threads) : List Byte :=
  (List.range threads.payload.dataLength.toNat).map threads.data

/-- The end of a read of `rxdata`. -/
def finishReading (taken : Option Byte) (threads : Threads) : Threads :=
  { threads with
    readings := threads.readings ++
      [{ offset := (threads.payload.address % 4).toNat
         taken := taken
         data := threads.returned }]
    simulation := .idle }

/-- The end of `interrupt`. -/
def finishInterrupt (trigger : Bool) (threads : Threads) : Threads :=
  { threads with
    uart := { threads.uart with
      triggered :=
        if trigger then threads.uart.triggered + 1
        else threads.uart.triggered }
    simulation := .idle }

/-- A step of the simulation; `call` is what it starts when it is idle. -/
def stepSimulation (call : Call) (threads : Threads) : Option Threads :=
  match threads.simulation with
  | .idle => threads.start call
  | .txdataLock => (threads.lockTx .simulation).map (goto .txdataLocked)
  | .txdataLocked => some
      ({ threads with uart := threads.uart.onRead txdata }.goto .txdataDone)
  | .txdataDone => some (threads.unlockTx.goto .unlocked)
  | .rxdataLock => (threads.lockRcv .simulation).map (goto .rxdataLocked)
  | .rxdataLocked =>
      match threads.uart.rxFifo with
      | [] => some
          ({ threads with uart := threads.uart.set rxdata (1 <<< 31) }.goto
            (.rxdataDone none))
      | front :: rest => some
          ({ threads with
            uart := { threads.uart.set rxdata (front.setWidth 32) with
              rxFifo := rest } }.goto (.rxdataPopped front))
  | .rxdataPopped front => some
      ({ threads with
        uart := { threads.uart with rxempty := threads.uart.rxempty + 1 } }.goto
          (.rxdataDone (some front)))
  | .rxdataDone taken => some (threads.unlockRcv.goto (.rxdataUnlocked taken))
  | .rxdataUnlocked taken => threads.perform.map (finishReading taken)
  | .ipTxLock => (threads.lockTx .simulation).map (goto .ipTxLocked)
  | .ipTxLocked => some
      (threads.goto (.ipTxDone (if threads.uart.TxWatermark then uartTxwm else 0)))
  | .ipTxDone ret => some (threads.unlockTx.goto (.ipRxLock ret))
  | .ipRxLock ret => (threads.lockRcv .simulation).map (goto (.ipRxLocked ret))
  | .ipRxLocked ret => some
      (threads.goto
        (.ipRxDone (ret ||| if threads.uart.RxWatermark then uartRxwm else 0)))
  | .ipRxDone ret => some
      ({ threads.unlockRcv with uart := threads.uart.set ip ret }.goto .unlocked)
  | .unlocked => threads.perform.map (goto .idle)
  | .pushLock => (threads.lockTx .simulation).map (goto .pushLocked)
  | .pushLocked =>
      if threads.uart.txFifo.length ≥ uartFifoDepth then
        some (threads.goto .pushIgnored)
      else
        let data := (threads.uart.registers txdata).setWidth 8
        some ({ threads with
          uart := { threads.uart with txFifo := threads.uart.txFifo ++ [data] }
          written := threads.written ++ [data] }.goto .pushDone)
  | .pushIgnored => some (threads.unlockTx.goto .idle)
  | .pushDone => some (threads.unlockTx.goto .pushUnlocked)
  | .pushUnlocked => some
      ({ threads with
        uart := { threads.uart with txfull := threads.uart.txfull + 1 } }.goto .idle)
  | .interruptRxLock =>
      (threads.lockRcv .simulation).map (goto .interruptRxLocked)
  | .interruptRxLocked => some
      (threads.goto (.interruptRxDone threads.uart.RxWatermark))
  | .interruptRxDone trigger => some
      (threads.unlockRcv.goto (.interruptTx trigger))
  | .interruptTx trigger =>
      if threads.uart.registers ie &&& uartTxwm ≠ 0 then
        (threads.lockTx .simulation).map (goto (.interruptTxLocked trigger))
      else some (threads.finishInterrupt trigger)
  | .interruptTxLocked trigger => some
      (threads.goto (.interruptTxDone (trigger || threads.uart.TxWatermark)))
  | .interruptTxDone trigger => some (threads.unlockTx.finishInterrupt trigger)

/-! ## Interleavings -/

/-- Which thread takes the next step. -/
inductive Step : Type
  | receive (data : Byte)
  | transmit
  | simulation (call : Call)
  /-- `stop_threads` sets `stop`. -/
  | stop
  /-- `stop_threads` posts the semaphores. -/
  | unblockTransmit
  | unblockReceive

def step (threads : Threads) : Step → Option Threads
  | .receive data => threads.stepReceive data
  | .transmit => threads.stepTransmit
  | .simulation call => threads.stepSimulation call
  | .stop => some { threads with stop := true }
  | .unblockTransmit =>
      if threads.stop then some { threads with
        uart := { threads.uart with txfull := threads.uart.txfull + 1 } }
      else none
  | .unblockReceive =>
      if threads.stop then some { threads with
        uart := { threads.uart with rxempty := threads.uart.rxempty + 1 } }
      else none

def Steps (threads : Threads) (step : Step) (later : Threads) : Prop :=
  threads.step step = some later

end Threads

end AbstractUart

end RiscvVp
