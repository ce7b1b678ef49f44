import RiscvVp.Device.Trace
import RiscvVp.Uart.Threads

/-!
# The FIFOs of the UART under concurrency

What is in a FIFO, what its semaphore counts and what is in flight between the two
add up at every point of every interleaving.  So neither FIFO overflows, nothing is
popped from an empty FIFO, and the bytes keep their order.

A read of `rxdata` takes a byte whatever part of the register it asks for.  It
returns that byte when it starts at the address of the register, and bytes of 0
when it starts behind it.
-/

namespace RiscvVp

namespace AbstractUart

open TlmMap Bits

/-! ## What is in flight -/

/-- A place is taken for a byte that is not pushed yet. -/
def ReceivePc.pushes : ReceivePc → ℕ
  | .waited _ | .locked _ => 1
  | _ => 0

/-- A byte is popped and its place is not given back yet. -/
def SimulationPc.pops : SimulationPc → ℕ
  | .rxdataPopped _ => 1
  | _ => 0

/-- A byte is pushed and not counted yet. -/
def SimulationPc.pushes : SimulationPc → ℕ
  | .pushDone | .pushUnlocked => 1
  | _ => 0

/-- A byte is not counted any more and not popped yet. -/
def TransmitPc.pops : TransmitPc → ℕ
  | .waited | .locked => 1
  | _ => 0

/-- The byte that the transmit thread has popped and not sent yet. -/
def TransmitPc.held : TransmitPc → List Byte
  | .popped data | .unlocked data | .sending data => [data]
  | _ => []

/-- The simulation is in a read of `rxdata`. -/
def SimulationPc.readsRxdata : SimulationPc → Bool
  | .rxdataLock | .rxdataLocked | .rxdataPopped _ | .rxdataDone _
  | .rxdataUnlocked _ => true
  | _ => false

/-- What a read of `rxdata` has found in the FIFO. -/
def SimulationPc.found : SimulationPc → Option (Option Byte)
  | .rxdataPopped front => some (some front)
  | .rxdataDone taken | .rxdataUnlocked taken => some taken
  | _ => none

/-- The byte that a read has taken and not returned yet. -/
def SimulationPc.taken (pc : SimulationPc) : List Byte :=
  (pc.found.getD none).toList

theorem SimulationPc.found_of_not_readsRxdata {pc : SimulationPc}
    (elsewhere : pc.readsRxdata = false) : pc.found = none := by
  cases pc <;> first | rfl | cases elsewhere

/-- Nothing of the simulation is in flight. -/
structure SimulationPc.Quiet (pc : SimulationPc) : Prop where
  pops : pc.pops = 0
  pushes : pc.pushes = 0
  taken : pc.taken = []

/-! ## What a read returns -/

/-- The word in `rxdata` for what was found in the FIFO. -/
def foundWord : Option Byte → Word
  | some front => front.setWidth 32
  | none => 1 <<< 31

/-- The read has returned the part of the word that it asked for. -/
def Reading.Answers (reading : Reading) : Prop :=
  reading.data = (List.range reading.data.length).map fun index =>
    byte (foundWord reading.taken) (reading.offset + index)

/-- The byte that the guest has got: the first of those returned. -/
def Reading.received (reading : Reading) : List Byte :=
  if reading.taken.isSome then reading.data.take 1 else []

/-- A read of the register from its address on returns the byte that it took. -/
theorem Reading.received_of_answers {reading : Reading}
    (answers : reading.Answers) (offset : reading.offset = 0)
    (some : reading.data ≠ []) : reading.received = reading.taken.toList := by
  cases isTaken : reading.taken with
  | none => simp [received, isTaken]
  | some front =>
      obtain ⟨length, more⟩ : ∃ length, reading.data.length = length + 1 :=
        Nat.exists_eq_succ_of_ne_zero (by simpa using some)
      have low : byte (foundWord (.some front)) 0 = front := by
        apply BitVec.eq_of_toNat_eq
        have small : front.toNat < 256 := front.isLt
        simpa [byte, foundWord, BitVec.extractLsb'_toNat] using small
      rw [Answers, isTaken, offset, more, List.range_succ_eq_map] at answers
      simp [received, isTaken, answers, low]

namespace Threads

/-- The accounts of the two FIFOs. -/
structure Accounted (threads : Threads) : Prop where
  running : threads.stop = false
  rxCount : threads.uart.rxFifo.length + threads.uart.rxempty +
    threads.receive.pushes + threads.simulation.pops = uartFifoDepth
  txCount : threads.uart.txfull + threads.simulation.pushes +
    threads.transmit.pops = threads.uart.txFifo.length
  rxBound : threads.uart.rxFifo.length ≤ uartFifoDepth
  txBound : threads.uart.txFifo.length ≤ uartFifoDepth
  neverEmpty : threads.underflow = false
  rxOrder : threads.readings.filterMap Reading.taken ++
    threads.simulation.taken ++ threads.uart.rxFifo = threads.pushed
  answers : ∀ reading ∈ threads.readings, reading.Answers
  txOrder : threads.sent ++ threads.transmit.held ++ threads.uart.txFifo =
    threads.written

theorem accounted_initial : Accounted {} where
  running := rfl
  rxCount := rfl
  txCount := rfl
  rxBound := Nat.zero_le _
  txBound := Nat.zero_le _
  neverEmpty := rfl
  rxOrder := rfl
  answers _ member := absurd member List.not_mem_nil
  txOrder := rfl

/-- In a read of `rxdata`, `fn` is a read of the register, which holds what was
found. -/
structure Serving (threads : Threads) : Prop where
  fn : threads.simulation.readsRxdata = true → ∃ r : RegMapping,
    r.vptr = rxdata ∧ threads.payload.command = .read ∧
      r.mode.allows threads.payload.command ∧
        threads.fn = r.fn threads.payload
  register : ∀ taken, threads.simulation.found = some taken →
    threads.uart.registers rxdata = foundWord taken

/-- Elsewhere there is nothing to serve. -/
theorem serving_of_elsewhere {threads : Threads}
    (elsewhere : threads.simulation.readsRxdata = false) : Serving threads := by
  refine ⟨fun reads => ?_, fun taken found => ?_⟩
  · rw [elsewhere] at reads
    cases reads
  · rw [SimulationPc.found_of_not_readsRxdata elsewhere] at found
    cases found

theorem Serving.congr {threads later : Threads} (serving : Serving threads)
    (simulation : later.simulation = threads.simulation)
    (payload : later.payload = threads.payload) (fn : later.fn = threads.fn)
    (registers : later.uart.registers = threads.uart.registers) :
    Serving later := by
  constructor
  · rw [simulation, payload, fn]
    exact serving.fn
  · rw [simulation, registers]
    exact serving.register

/-! ## The threads of the host -/

theorem Accounted.receive {threads later : Threads} {data : Byte}
    (accounted : Accounted threads)
    (stepped : threads.stepReceive data = some later) : Accounted later := by
  obtain ⟨uart, rcvmtx, txmtx, receive⟩ := threads
  have rxCount := accounted.rxCount
  have rxBound := accounted.rxBound
  cases receive with
  | idle =>
      simp only [stepReceive] at stepped
      split at stepped
      next => cases stepped
      next nonzero =>
        obtain rfl := Option.some.inj stepped
        refine { accounted with rxCount := ?_ }
        simp only [ReceivePc.pushes] at rxCount ⊢
        omega
  | waited data =>
      simp only [stepReceive, lockRcv] at stepped
      split at stepped
      next =>
        obtain rfl := Option.some.inj stepped
        exact { accounted with }
      next => cases stepped
  | locked data =>
      obtain rfl := Option.some.inj stepped
      simp only [ReceivePc.pushes] at rxCount
      refine { accounted with rxCount := ?_, rxBound := ?_, rxOrder := ?_ }
      · simp only [ReceivePc.pushes, List.length_append, List.length_singleton]
        omega
      · simp only [List.length_append, List.length_singleton]
        omega
      · have order := accounted.rxOrder
        rw [← List.append_assoc]
        exact congrArg (· ++ [data]) order
  | pushed =>
      obtain rfl := Option.some.inj stepped
      exact { accounted with }
  | unlocked =>
      obtain rfl := Option.some.inj stepped
      exact { accounted with }

theorem Accounted.transmit {threads later : Threads}
    (accounted : Accounted threads)
    (stepped : threads.stepTransmit = some later) : Accounted later := by
  obtain ⟨uart, rcvmtx, txmtx, receive, transmit, simulation, payload, fn, data,
    stop⟩ := threads
  obtain rfl : stop = false := accounted.running
  have txCount := accounted.txCount
  cases transmit with
  | idle =>
      simp only [stepTransmit, Bool.false_eq_true, if_false] at stepped
      split at stepped
      next => cases stepped
      next nonzero =>
        obtain rfl := Option.some.inj stepped
        refine { accounted with txCount := ?_ }
        simp only [TransmitPc.pops] at txCount ⊢
        omega
  | waited =>
      simp only [stepTransmit, Bool.false_eq_true, if_false, lockTx] at stepped
      split at stepped
      next =>
        obtain rfl := Option.some.inj stepped
        exact { accounted with }
      next => cases stepped
  | locked =>
      simp only [stepTransmit] at stepped
      split at stepped
      -- The account leaves a byte for the transmission that is in flight.
      next empty =>
        simp only [TransmitPc.pops, empty, List.length_nil] at txCount
        omega
      next front rest fifo =>
        obtain rfl := Option.some.inj stepped
        have bound := accounted.txBound
        have order := accounted.txOrder
        simp only [TransmitPc.pops, fifo, List.length_cons] at txCount bound
        refine { accounted with txCount := ?_, txBound := ?_, txOrder := ?_ }
        · simp only [TransmitPc.pops]
          omega
        · exact Nat.le_of_succ_le bound
        · simp only [TransmitPc.held, fifo, List.append_nil] at order ⊢
          rw [← order, List.append_assoc]
          rfl
  | popped data =>
      obtain rfl := Option.some.inj stepped
      exact { accounted with }
  | unlocked data =>
      obtain rfl := Option.some.inj stepped
      exact { accounted with }
  | sending data =>
      obtain rfl := Option.some.inj stepped
      have order := accounted.txOrder
      refine { accounted with txOrder := ?_ }
      simp only [TransmitPc.held, List.append_nil] at order ⊢
      exact order
  | stopped => cases stepped

/-- The receive thread leaves the simulation and the registers alone. -/
theorem Serving.receive {threads later : Threads} {data : Byte}
    (serving : Serving threads)
    (stepped : threads.stepReceive data = some later) : Serving later := by
  obtain ⟨uart, rcvmtx, txmtx, receive⟩ := threads
  cases receive with
  | idle =>
      simp only [stepReceive] at stepped
      split at stepped
      next => cases stepped
      next =>
        obtain rfl := Option.some.inj stepped
        exact serving.congr rfl rfl rfl rfl
  | waited data =>
      simp only [stepReceive, lockRcv] at stepped
      split at stepped
      next =>
        obtain rfl := Option.some.inj stepped
        exact serving.congr rfl rfl rfl rfl
      next => cases stepped
  | locked data | pushed | unlocked =>
      obtain rfl := Option.some.inj stepped
      exact serving.congr rfl rfl rfl rfl

/-- So does the transmit thread. -/
theorem Serving.transmit {threads later : Threads} (serving : Serving threads)
    (stepped : threads.stepTransmit = some later) : Serving later := by
  obtain ⟨uart, rcvmtx, txmtx, receive, transmit⟩ := threads
  cases transmit with
  | idle =>
      simp only [stepTransmit] at stepped
      split at stepped
      · obtain rfl := Option.some.inj stepped
        exact serving.congr rfl rfl rfl rfl
      split at stepped
      · cases stepped
      · obtain rfl := Option.some.inj stepped
        exact serving.congr rfl rfl rfl rfl
  | waited =>
      simp only [stepTransmit, lockTx] at stepped
      split at stepped
      · obtain rfl := Option.some.inj stepped
        exact serving.congr rfl rfl rfl rfl
      split at stepped
      · obtain rfl := Option.some.inj stepped
        exact serving.congr rfl rfl rfl rfl
      · cases stepped
  | locked =>
      simp only [stepTransmit] at stepped
      split at stepped <;>
        (obtain rfl := Option.some.inj stepped
         exact serving.congr rfl rfl rfl rfl)
  | popped data | unlocked data | sending data =>
      obtain rfl := Option.some.inj stepped
      exact serving.congr rfl rfl rfl rfl
  | stopped => cases stepped

/-! ## The simulation -/

/-- Between two points with nothing in flight the FIFOs and their semaphores stay as
they are. -/
theorem Accounted.move {threads : Threads} (accounted : Accounted threads)
    (before : threads.simulation.Quiet) {uart : Uart} {pc : SimulationPc}
    {rcvmtx txmtx : Option Thread} {payload : Payload}
    {fn : State → Except Fault State} {data : ℕ → Byte} (after : pc.Quiet)
    (rx : uart.rxFifo = threads.uart.rxFifo)
    (rxempty : uart.rxempty = threads.uart.rxempty)
    (tx : uart.txFifo = threads.uart.txFifo)
    (txfull : uart.txfull = threads.uart.txfull) :
    Accounted { threads with
      uart := uart, simulation := pc, rcvmtx := rcvmtx, txmtx := txmtx,
      payload := payload, fn := fn, data := data } := by
  have rxCount := accounted.rxCount
  have txCount := accounted.txCount
  have rxBound := accounted.rxBound
  have txBound := accounted.txBound
  have rxOrder := accounted.rxOrder
  have txOrder := accounted.txOrder
  rw [before.pops] at rxCount
  rw [before.pushes] at txCount
  rw [before.taken] at rxOrder
  constructor
  · exact accounted.running
  · rw [after.pops, rx, rxempty]
    exact rxCount
  · rw [after.pushes, tx, txfull]
    exact txCount
  · rwa [rx]
  · rwa [tx]
  · exact accounted.neverEmpty
  · rw [after.taken, rx]
    exact rxOrder
  · exact accounted.answers
  · rwa [tx]

/-- `fn` changes registers and the memory of the host. -/
theorem perform_cases {threads later : Threads}
    (performs : threads.perform = some later) :
    ∃ registers data, later = { threads with
      uart := { threads.uart with registers := registers }, data := data } := by
  rw [perform] at performs
  split at performs
  next => cases performs
  next performed _ => exact ⟨_, _, (Option.some.inj performs).symm⟩

theorem Accounted.perform {threads later : Threads}
    (accounted : Accounted threads) (quiet : threads.simulation.Quiet)
    (performs : threads.perform = some later) :
    Accounted later ∧ later.simulation = threads.simulation := by
  obtain ⟨registers, data, rfl⟩ := perform_cases performs
  exact ⟨accounted.move quiet quiet rfl rfl rfl rfl, rfl⟩

/-- Going from one point to another where nothing is in flight. -/
theorem Accounted.goto {threads : Threads} (accounted : Accounted threads)
    (before : threads.simulation.Quiet) {pc : SimulationPc} (after : pc.Quiet) :
    Accounted (threads.goto pc) :=
  accounted.move before after rfl rfl rfl rfl

theorem Accounted.startWrite {threads later : Threads} {access : RegisterAccess}
    (accounted : Accounted threads) (quiet : threads.simulation.Quiet)
    (stepped : threads.startWrite access = some later) : Accounted later := by
  obtain ⟨performed, performs, rfl⟩ := Option.map_eq_some_iff.1 stepped
  obtain ⟨kept, same⟩ := accounted.perform quiet performs
  rw [← same] at quiet
  have push : (SimulationPc.pushLock).Quiet := ⟨rfl, rfl, rfl⟩
  dsimp only
  split
  · split
    · exact kept.move quiet push rfl rfl rfl rfl
    · exact kept.goto quiet push
  · split
    · exact kept.move quiet quiet rfl rfl rfl rfl
    · exact kept

theorem Accounted.startAccess {threads later : Threads}
    {access : RegisterAccess} (accounted : Accounted threads)
    (quiet : threads.simulation.Quiet)
    (stepped : threads.startAccess access = some later) : Accounted later := by
  rw [Threads.startAccess] at stepped
  split at stepped
  · obtain rfl := Option.some.inj stepped
    exact accounted.goto quiet ⟨rfl, rfl, rfl⟩
  split at stepped
  · obtain rfl := Option.some.inj stepped
    exact accounted.goto quiet ⟨rfl, rfl, rfl⟩
  split at stepped
  · obtain rfl := Option.some.inj stepped
    exact accounted.goto quiet ⟨rfl, rfl, rfl⟩
  · exact (accounted.perform quiet stepped).1

theorem Accounted.start {threads later : Threads} {call : Call}
    (accounted : Accounted threads) (idle : threads.simulation = .idle)
    (stepped : threads.start call = some later) : Accounted later := by
  have quiet : threads.simulation.Quiet := by rw [idle]; exact ⟨rfl, rfl, rfl⟩
  cases call with
  | access payload data =>
      simp only [Threads.start] at stepped
      split at stepped
      next => cases stepped
      next => cases stepped
      next access _ =>
        have served : Accounted { threads with
            payload := payload, fn := access.fn, data := data } :=
          accounted.move quiet quiet rfl rfl rfl rfl
        split at stepped
        next => exact served.startWrite quiet stepped
        next => exact served.startAccess quiet stepped
  | update =>
      obtain rfl := Option.some.inj stepped
      exact accounted.move quiet quiet rfl rfl rfl rfl
  | interrupt =>
      simp only [Threads.start] at stepped
      split at stepped
      next =>
        obtain rfl := Option.some.inj stepped
        split
        · exact accounted.move quiet ⟨rfl, rfl, rfl⟩ rfl rfl rfl rfl
        · exact accounted.move quiet ⟨rfl, rfl, rfl⟩ rfl rfl rfl rfl
      next => cases stepped

/-- Taking a mutex changes nothing else. -/
theorem Accounted.lock {threads later : Threads} {pc : SimulationPc}
    {taken : Threads → Option Threads}
    (isLock : taken = lockRcv .simulation ∨ taken = lockTx .simulation)
    (accounted : Accounted threads) (before : threads.simulation.Quiet)
    (after : pc.Quiet)
    (stepped : (taken threads).map (Threads.goto pc) = some later) :
    Accounted later := by
  obtain ⟨locked, isLocked, rfl⟩ := Option.map_eq_some_iff.1 stepped
  rcases isLock with rfl | rfl
  · simp only [lockRcv] at isLocked
    split at isLocked
    next =>
      obtain rfl := Option.some.inj isLocked
      exact accounted.move before after rfl rfl rfl rfl
    next => cases isLocked
  · simp only [lockTx] at isLocked
    split at isLocked
    next =>
      obtain rfl := Option.some.inj isLocked
      exact accounted.move before after rfl rfl rfl rfl
    next => cases isLocked

/-- A read of `rxdata` takes the first byte that was pushed, if there is one. -/
theorem Accounted.rxdataLocked {threads later : Threads} {call : Call}
    (accounted : Accounted threads) (pc : threads.simulation = .rxdataLocked)
    (stepped : threads.stepSimulation call = some later) : Accounted later := by
  have quiet : threads.simulation.Quiet := by rw [pc]; exact ⟨rfl, rfl, rfl⟩
  simp only [stepSimulation, pc] at stepped
  split at stepped
  next =>
    obtain rfl := Option.some.inj stepped
    exact accounted.move quiet ⟨rfl, rfl, rfl⟩ rfl rfl rfl rfl
  next front rest fifo =>
    obtain rfl := Option.some.inj stepped
    have rxCount := accounted.rxCount
    have rxBound := accounted.rxBound
    have rxOrder := accounted.rxOrder
    have txCount := accounted.txCount
    rw [quiet.pops, fifo, List.length_cons] at rxCount
    rw [fifo, List.length_cons] at rxBound
    rw [quiet.taken, fifo, List.append_nil] at rxOrder
    rw [quiet.pushes] at txCount
    refine { accounted with
      rxCount := ?_, rxBound := ?_, rxOrder := ?_, txCount := txCount }
    · change rest.length + threads.uart.rxempty + threads.receive.pushes + 1 = _
      omega
    · exact Nat.le_of_succ_le rxBound
    · rw [← rxOrder]
      exact List.append_assoc _ [front] rest

/-- A write of `txdata` adds its byte, unless the FIFO is full. -/
theorem Accounted.pushLocked {threads later : Threads} {call : Call}
    (accounted : Accounted threads) (pc : threads.simulation = .pushLocked)
    (stepped : threads.stepSimulation call = some later) : Accounted later := by
  have quiet : threads.simulation.Quiet := by rw [pc]; exact ⟨rfl, rfl, rfl⟩
  simp only [stepSimulation, pc] at stepped
  split at stepped
  next =>
    obtain rfl := Option.some.inj stepped
    exact accounted.goto quiet ⟨rfl, rfl, rfl⟩
  next room =>
    obtain rfl := Option.some.inj stepped
    have rxCount := accounted.rxCount
    have rxOrder := accounted.rxOrder
    have txCount := accounted.txCount
    have txOrder := accounted.txOrder
    rw [quiet.pops] at rxCount
    rw [quiet.taken] at rxOrder
    rw [quiet.pushes] at txCount
    refine { accounted with
      rxCount := rxCount, rxOrder := rxOrder, txCount := ?_, txBound := ?_,
      txOrder := ?_ }
    · change threads.uart.txfull + 1 + threads.transmit.pops =
        (threads.uart.txFifo ++ [_]).length
      rw [List.length_append, List.length_singleton]
      omega
    · change (threads.uart.txFifo ++ [_]).length ≤ _
      rw [List.length_append, List.length_singleton]
      omega
    · change threads.sent ++ threads.transmit.held ++
        (threads.uart.txFifo ++ [_]) = threads.written ++ [_]
      rw [← List.append_assoc, txOrder]

/-- In a read of `rxdata`, `fn` copies the part of the register that is asked
for. -/
theorem perform_rxdata {threads later : Threads} {taken : Option Byte}
    (serving : Serving threads)
    (pc : threads.simulation = .rxdataUnlocked taken)
    (performs : threads.perform = some later) :
    later = { threads with
      data := Storage.overwrite threads.data 0
        threads.payload.dataLength.toNat fun index => byte (foundWord taken)
          ((threads.payload.address % 4).toNat + index) } := by
  obtain ⟨r, vptr, reads, allowed, fn⟩ := serving.fn (by rw [pc]; rfl)
  have register := serving.register taken (by rw [pc]; rfl)
  have performed : threads.fn ⟨threads.uart.registers, threads.data⟩ =
      .ok ⟨threads.uart.registers, Storage.overwrite threads.data 0
        threads.payload.dataLength.toNat fun index => byte (foundWord taken)
          ((threads.payload.address % 4).toNat + index)⟩ := by
    simp only [fn, fn_read reads allowed, RegMapping.value, vptr, register]
  rw [perform, performed] at performs
  exact (Option.some.inj performs).symm

/-- The end of a read of `rxdata`. -/
theorem Accounted.rxdataUnlocked {threads later : Threads}
    {taken : Option Byte} (accounted : Accounted threads)
    (serving : Serving threads)
    (pc : threads.simulation = .rxdataUnlocked taken)
    (stepped : threads.perform.map (finishReading taken) = some later) :
    Accounted later := by
  obtain ⟨performed, performs, rfl⟩ := Option.map_eq_some_iff.1 stepped
  obtain rfl := perform_rxdata serving pc performs
  have rxCount := accounted.rxCount
  have txCount := accounted.txCount
  have rxOrder := accounted.rxOrder
  rw [pc] at rxCount txCount rxOrder
  refine { accounted with
    rxCount := rxCount, txCount := txCount, rxOrder := ?_, answers := ?_ }
  · rw [← rxOrder]
    change List.filterMap Reading.taken (_ ++ [_]) ++ [] ++ _ = _
    rw [List.filterMap_append, List.append_nil]
    cases taken <;> rfl
  · intro reading member
    rcases List.mem_append.1 member with earlier | last
    · exact accounted.answers reading earlier
    · cases List.mem_singleton.1 last
      simp only [Reading.Answers, returned, List.length_map, List.length_range]
      apply List.map_congr_left
      intro index below
      have inside := List.mem_range.1 below
      rw [Storage.overwrite, if_pos ⟨Nat.zero_le _, by omega⟩, Nat.sub_zero]

theorem Accounted.simulation {threads later : Threads} {call : Call}
    (accounted : Accounted threads) (serving : Serving threads)
    (stepped : threads.stepSimulation call = some later) : Accounted later := by
  obtain ⟨uart, rcvmtx, txmtx, receive, transmit, simulation⟩ := threads
  cases simulation with
  | idle => exact accounted.start rfl stepped
  | txdataLock | ipTxLock | pushLock =>
      exact accounted.lock (.inr rfl) ⟨rfl, rfl, rfl⟩ ⟨rfl, rfl, rfl⟩ stepped
  | rxdataLock | ipRxLock | interruptRxLock =>
      exact accounted.lock (.inl rfl) ⟨rfl, rfl, rfl⟩ ⟨rfl, rfl, rfl⟩ stepped
  | txdataLocked | txdataDone | ipTxLocked | ipTxDone | ipRxLocked | ipRxDone
  | pushIgnored | interruptRxLocked | interruptRxDone | interruptTxLocked
  | interruptTxDone =>
      obtain rfl := Option.some.inj stepped
      exact accounted.move ⟨rfl, rfl, rfl⟩ ⟨rfl, rfl, rfl⟩ rfl rfl rfl rfl
  | unlocked =>
      obtain ⟨performed, performs, rfl⟩ := Option.map_eq_some_iff.1 stepped
      obtain ⟨kept, same⟩ := accounted.perform ⟨rfl, rfl, rfl⟩ performs
      exact kept.goto (by rw [same]; exact ⟨rfl, rfl, rfl⟩) ⟨rfl, rfl, rfl⟩
  | rxdataLocked => exact accounted.rxdataLocked rfl stepped
  | rxdataPopped front =>
      obtain rfl := Option.some.inj stepped
      have rxCount := accounted.rxCount
      refine { accounted with rxCount := ?_ }
      simp only [SimulationPc.pops, Threads.goto] at rxCount ⊢
      omega
  | rxdataDone taken =>
      obtain rfl := Option.some.inj stepped
      exact { accounted with }
  | rxdataUnlocked taken =>
      exact accounted.rxdataUnlocked serving rfl stepped
  | pushLocked => exact accounted.pushLocked rfl stepped
  | pushDone =>
      obtain rfl := Option.some.inj stepped
      exact { accounted with }
  | pushUnlocked =>
      obtain rfl := Option.some.inj stepped
      have txCount := accounted.txCount
      refine { accounted with txCount := ?_ }
      simp only [SimulationPc.pushes, Threads.goto] at txCount ⊢
      omega
  | interruptTx trigger =>
      simp only [stepSimulation] at stepped
      split at stepped
      next =>
        exact accounted.lock (.inr rfl) ⟨rfl, rfl, rfl⟩ ⟨rfl, rfl, rfl⟩ stepped
      next =>
        obtain rfl := Option.some.inj stepped
        exact accounted.move ⟨rfl, rfl, rfl⟩ ⟨rfl, rfl, rfl⟩ rfl rfl rfl rfl

/-! ## The access that is served -/

/-- An access of the guest is served with the `fn` of its register. -/
theorem Serving.start {threads later : Threads} {call : Call}
    (idle : threads.simulation = .idle)
    (stepped : threads.start call = some later) : Serving later := by
  have elsewhere : threads.simulation.readsRxdata = false := by
    rw [idle]
    rfl
  cases call with
  | access payload data =>
      simp only [Threads.start] at stepped
      split at stepped
      next => cases stepped
      next => cases stepped
      next access accessed =>
        obtain ⟨r, found, allowed, command, rfl⟩ := access_some accessed
        split at stepped
        next =>
          obtain ⟨performed, performs, rfl⟩ := Option.map_eq_some_iff.1 stepped
          obtain ⟨registers, data, rfl⟩ := perform_cases performs
          apply serving_of_elsewhere
          dsimp only
          split
          · rfl
          · split <;> exact elsewhere
        next notWrite =>
          rw [startAccess] at stepped
          split at stepped
          · obtain rfl := Option.some.inj stepped
            exact serving_of_elsewhere rfl
          split at stepped
          next isRxdata =>
            obtain rfl := Option.some.inj stepped
            have reads : payload.command = .read :=
              command.resolve_right (by simpa using notWrite)
            refine ⟨fun _ => ⟨r, isRxdata, reads, allowed, rfl⟩, ?_⟩
            intro taken found
            cases found
          split at stepped
          · obtain rfl := Option.some.inj stepped
            exact serving_of_elsewhere rfl
          · obtain ⟨registers, data, rfl⟩ := perform_cases stepped
            exact serving_of_elsewhere elsewhere
  | update =>
      obtain rfl := Option.some.inj stepped
      exact serving_of_elsewhere elsewhere
  | interrupt =>
      simp only [Threads.start] at stepped
      split at stepped
      next =>
        obtain rfl := Option.some.inj stepped
        apply serving_of_elsewhere
        split <;> rfl
      next => cases stepped

theorem simulation_of_lock {threads later : Threads} {pc : SimulationPc}
    {taken : Threads → Option Threads}
    (stepped : (taken threads).map (goto pc) = some later) :
    later.simulation = pc := by
  obtain ⟨locked, _, rfl⟩ := Option.map_eq_some_iff.1 stepped
  rfl

theorem Serving.simulation {threads later : Threads} {call : Call}
    (serving : Serving threads)
    (stepped : threads.stepSimulation call = some later) : Serving later := by
  obtain ⟨uart, rcvmtx, txmtx, receive, transmit, simulation⟩ := threads
  cases simulation with
  | idle => exact Serving.start rfl stepped
  | txdataLock | ipTxLock | pushLock | ipRxLock | interruptRxLock | unlocked =>
      apply serving_of_elsewhere
      rw [simulation_of_lock stepped]
      rfl
  | txdataLocked | txdataDone | ipTxLocked | ipTxDone | ipRxLocked | ipRxDone
  | pushIgnored | pushDone | pushUnlocked | interruptRxLocked | interruptRxDone
  | interruptTxLocked | interruptTxDone =>
      obtain rfl := Option.some.inj stepped
      exact serving_of_elsewhere rfl
  | rxdataLock =>
      simp only [stepSimulation, lockRcv] at stepped
      split at stepped
      next =>
        obtain rfl := Option.some.inj stepped
        refine ⟨serving.fn, fun taken found => ?_⟩
        cases found
      next => cases stepped
  | rxdataLocked =>
      simp only [stepSimulation] at stepped
      split at stepped
      next =>
        obtain rfl := Option.some.inj stepped
        refine ⟨serving.fn, fun taken found => ?_⟩
        cases found
        exact Function.update_self rxdata _ uart.registers
      next front rest fifo =>
        obtain rfl := Option.some.inj stepped
        refine ⟨serving.fn, fun taken found => ?_⟩
        cases found
        exact Function.update_self rxdata _ uart.registers
  | rxdataPopped front =>
      obtain rfl := Option.some.inj stepped
      exact ⟨serving.fn, serving.register⟩
  | rxdataDone taken =>
      obtain rfl := Option.some.inj stepped
      exact ⟨serving.fn, serving.register⟩
  | rxdataUnlocked taken =>
      obtain ⟨performed, _, rfl⟩ := Option.map_eq_some_iff.1 stepped
      exact serving_of_elsewhere rfl
  | pushLocked =>
      simp only [stepSimulation] at stepped
      split at stepped <;>
        (obtain rfl := Option.some.inj stepped
         exact serving_of_elsewhere rfl)
  | interruptTx trigger =>
      simp only [stepSimulation] at stepped
      split at stepped
      next =>
        apply serving_of_elsewhere
        rw [simulation_of_lock stepped]
        rfl
      next =>
        obtain rfl := Option.some.inj stepped
        exact serving_of_elsewhere rfl

/-! ## Every interleaving -/

/-- The accounts, and what a read in progress is about to return. -/
structure Kept (threads : Threads) : Prop where
  accounted : Accounted threads
  serving : Serving threads

theorem Kept.step {threads later : Threads} {step : Step}
    (kept : Kept threads) (notStop : step ≠ .stop)
    (stepped : Steps threads step later) : Kept later := by
  obtain ⟨accounted, serving⟩ := kept
  cases step with
  | receive data => exact ⟨accounted.receive stepped, serving.receive stepped⟩
  | transmit => exact ⟨accounted.transmit stepped, serving.transmit stepped⟩
  | simulation call =>
      exact ⟨accounted.simulation serving stepped, serving.simulation stepped⟩
  | stop => exact absurd rfl notStop
  | unblockTransmit | unblockReceive =>
      simp only [Steps, Threads.step, accounted.running, Bool.false_eq_true,
        if_false] at stepped
      cases stepped

/-- The bytes that the guest has got are those that were pushed, in order, up to
what is in flight and in the FIFO. -/
def ReadsPushed (threads : Threads) : Prop :=
  threads.readings.flatMap Reading.received ++ threads.simulation.taken ++
    threads.uart.rxFifo = threads.pushed

instance (threads : Threads) : Decidable threads.ReadsPushed :=
  inferInstanceAs (Decidable (_ = _))

/-- Every read of `rxdata` has started at the address of the register. -/
def ReadsFromStart (threads : Threads) : Prop :=
  ∀ reading ∈ threads.readings, reading.offset = 0 ∧ reading.data ≠ []

theorem readsPushed_of_accounted {threads : Threads}
    (accounted : Accounted threads) (start : ReadsFromStart threads) :
    ReadsPushed threads := by
  have taken : threads.readings.flatMap Reading.received =
      threads.readings.flatMap fun reading => reading.taken.toList := by
    apply List.flatMap_congr
    intro reading member
    exact Reading.received_of_answers (accounted.answers reading member)
      (start reading member).1 (start reading member).2
  rw [ReadsPushed, taken, ← List.filterMap_eq_flatMap_toList]
  exact accounted.rxOrder

/-- A byte arrives. -/
def arriving (data : Byte) : List Step :=
  List.replicate 5 (.receive data)

/-- The guest reads `length` bytes from an address. -/
def reading (address : BitVec 64) (length : BitVec 32) : List Step :=
  List.replicate 6
    (.simulation (.access ⟨.read, address, length⟩ fun _ => 0))

/-- The guest writes a byte to `txdata`, and it is sent. -/
def writing (data : Byte) : List Step :=
  List.replicate 5 (.simulation (.access ⟨.write, 0x0, 4⟩
    (Function.update (fun _ => 0) 0 data))) ++ List.replicate 6 .transmit

/-- Two bytes arrive, the first is read and sent back, and the second is taken by
a read of the second byte of the register. -/
def echo : List Step :=
  arriving 0x41 ++ arriving 0x42 ++ reading 0x4 4 ++ writing 0x41 ++
    reading 0x5 1

end Threads

end AbstractUart

end RiscvVp
