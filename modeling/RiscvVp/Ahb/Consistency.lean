import RiscvVp.Ahb.Slave

/-!
# Consistency of the AHB port

A sequentially consistent slave is a register file: a write replaces the
register it addresses at the edge that follows it, a read returns the register
it addresses and changes nothing.  `Memory` is that register file with the same
machine behind it.

The slave is not one.  A transaction selects the slave before it drives its
address, so that the first edges of a write still latch the address of the
transaction before it and store what is on the data bus since the last write.
After a write this repeats the write.  After a read of a register that can be
written it overwrites the register that was read.  The slave conducts itself
like the register file exactly when no write finds such a register in its way.
-/

namespace RiscvVp

namespace Ahb

variable {W O κ : Type} [DecidableEq W]

/-! ## A register file -/

/-- A register file with one write under way. -/
structure Memory (W κ : Type) where
  registers : W → BitVec 32
  pending : Option (W × BitVec 32)
  core : κ

namespace Memory

variable (layout : Layout W O) (core : Core W O κ) (memory : Memory W κ)

/-- The registers once the write that is under way has been made. -/
def settled : W → BitVec 32 :=
  match memory.pending with
  | some (register, data) => Function.update memory.registers register data
  | none => memory.registers

def edge : Memory W κ where
  registers := memory.settled
  pending := none
  core := core.step memory.registers memory.core

def view : W ⊕ O → BitVec 32 :=
  Sum.elim memory.registers (core.output memory.core)

def wait : ℕ → Memory W κ → List (Observation W O) × Memory W κ
  | 0, memory => ([], memory)
  | cycles + 1, memory =>
      let later := memory.edge core
      let rest := wait cycles later
      (.edge (later.view core) :: rest.1, rest.2)

/-- A write is under way when its three periods are over; a read takes its
value just before the last edge. -/
def perform (memory : Memory W κ) :
    Activity → List (Observation W O) × Memory W κ
  | .idle => wait core 1 memory
  | .write addr data =>
      let waited := wait core 3 memory
      (waited.1, { waited.2 with
        pending := (layout.decodeWrite (offset addr)).map (·, data) })
  | .read addr =>
      let waited := wait core 2 memory
      let last := wait core 1 waited.2
      (waited.1 ++ last.1 ++
        [.reply (layout.value (waited.2.view core) addr)], last.2)

/-- All that can be seen of a sequence. -/
def conduct : Memory W κ → List Activity → List (Observation W O)
  | _, [] => []
  | memory, activity :: rest =>
      let performed := memory.perform layout core activity
      performed.1 ++ conduct performed.2 rest

end Memory

/-! ## Harmless sequences -/

/-- The register that the address names, if it can be written, holds what was
written last. -/
def HoldsLatest (layout : Layout W O) (registers : W → BitVec 32)
    (addr data : BitVec 32) : Prop :=
  ∀ register, layout.decodeWrite (offset addr) = some register →
    registers register = data

/-- No write comes right after a read of a register that can be written and
that holds anything but what was written last.  `latest` is the address of the
last transaction if that was a read, `data` what was written last. -/
def Harmless (layout : Layout W O) : (registers : W → BitVec 32) →
    (latest : Option (BitVec 32)) → (data : BitVec 32) → List Activity → Prop
  | _, _, _, [] => True
  | registers, latest, data, .idle :: rest =>
      Harmless layout registers latest data rest
  | registers, _, data, .read addr :: rest =>
      Harmless layout registers (some addr) data rest
  | registers, latest, data, .write addr data' :: rest =>
      (∀ previous, latest = some previous →
        HoldsLatest layout registers previous data) ∧
      Harmless layout (layout.store registers (offset addr) data') none data'
        rest

/-! ## Edges of the slave -/

section Store

variable (layout : Layout W O) (registers : W → BitVec 32)
  (addr data : BitVec 32)

theorem store_eq_self_iff :
    layout.store registers (offset addr) data = registers ↔
      HoldsLatest layout registers addr data := by
  unfold Layout.store HoldsLatest
  cases layout.decodeWrite (offset addr) with
  | none => simp
  | some register =>
      rw [Function.update_eq_self_iff]
      simp [eq_comm]

theorem holdsLatest_store :
    HoldsLatest layout (layout.store registers (offset addr) data) addr
      data := by
  intro register decoded
  unfold Layout.store
  rw [decoded]
  exact Function.update_self ..

end Store

namespace Slave

variable (layout : Layout W O) (core : Core W O κ) (slave : Slave W κ)

@[simp]
theorem posedge_bus : (slave.posedge layout core).bus = slave.bus :=
  rfl

@[simp]
theorem posedge_registers :
    (slave.posedge layout core).registers = slave.dataInput layout :=
  rfl

@[simp]
theorem posedge_core :
    (slave.posedge layout core).core = core.step slave.registers slave.core :=
  rfl

@[simp]
theorem select_dataInput (hwrite : Bool) :
    (slave.select hwrite).dataInput layout = slave.dataInput layout :=
  rfl

@[simp]
theorem driveAddr_dataInput (addr : BitVec 32) :
    (slave.driveAddr addr).dataInput layout = slave.dataInput layout :=
  rfl

/-- What an edge latches is stored at the next: the data on the bus, at the
address that is on the bus now. -/
theorem dataInput_posedge (hresetn : slave.bus.hresetn = true)
    (sized : slave.ahbTransValid = true → slave.bus.hsize = 0b010) :
    (slave.posedge layout core).dataInput layout =
      if slave.ahbWriteEn then
        layout.store (slave.dataInput layout) (offset slave.bus.haddr)
          slave.bus.hwdata
      else slave.dataInput layout := by
  cases valid : slave.ahbTransValid with
  | false =>
      simp [dataInput, posedge, writeEnable, ahbWriteEn, valid, hresetn]
  | true =>
      cases writes : slave.bus.hwrite with
      | false =>
          simp [dataInput, posedge, writeEnable, ahbWriteEn, valid, writes,
            hresetn]
      | true =>
          simp [dataInput, posedge, writeEnable, ahbWriteEn, ahbAddr, ahbSize,
            valid, writes, hresetn, sized valid]

/-- The data may still change after the address has been latched. -/
theorem dataInput_driveData (hresetn : slave.bus.hresetn = true)
    (writes : slave.ahbWriteEn = true)
    (sized : slave.bus.hsize = 0b010) (data : BitVec 32) :
    ((slave.posedge layout core).driveData data).dataInput layout =
      layout.store (slave.dataInput layout) (offset slave.bus.haddr)
        data := by
  have valid : slave.ahbTransValid = true := by
    unfold ahbWriteEn at writes
    exact (Bool.and_eq_true_iff.1 writes).1
  simp [dataInput, driveData, posedge, writeEnable, ahbAddr, ahbSize,
    valid, writes, hresetn, sized]

/-- A read shows the register of the address that is on the bus. -/
theorem posedge_hrdata (hresetn : slave.bus.hresetn = true)
    (reads : slave.readEn = true) (sized : slave.bus.hsize = 0b010) :
    (slave.posedge layout core).hrdata =
      layout.value (slave.view core) slave.bus.haddr := by
  change slave.dataOutput layout core = _
  simp [dataOutput, hresetn, reads, sized]

end Slave

/-! ## The slave follows the register file -/

section Follows

variable (layout : Layout W O)

/-- The slave is where the register file is. -/
structure Follows (latest : Option (BitVec 32)) (data : BitVec 32)
    (slave : Slave W κ) (memory : Memory W κ) : Prop where
  hresetn : slave.bus.hresetn = true
  sized : slave.ahbTransValid = true → slave.bus.hsize = 0b010
  core : slave.core = memory.core
  registers : slave.registers = memory.registers
  settled : slave.dataInput layout = memory.settled
  hwdata : slave.bus.hwdata = data
  /-- the last transaction was a read, and its address is on the bus -/
  read : ∀ addr, latest = some addr →
    slave.bus.hwrite = false ∧ slave.bus.haddr = addr
  /-- or repeating what the bus says does no harm -/
  written : latest = none →
    HoldsLatest layout memory.settled slave.bus.haddr data

variable {layout} (core : Core W O κ) {latest : Option (BitVec 32)}
  {data : BitVec 32} {slave : Slave W κ} {memory : Memory W κ}

namespace Follows

theorem view (follows : Follows layout latest data slave memory) :
    slave.view core = memory.view core := by
  unfold Slave.view Memory.view
  rw [follows.registers, follows.core]

/-- An edge at which the slave is not made to write anew. -/
theorem posedge (follows : Follows layout latest data slave memory)
    (harmless : slave.ahbWriteEn = true →
      HoldsLatest layout memory.settled slave.bus.haddr data) :
    Follows layout latest data (slave.posedge layout core)
      (memory.edge core) where
  hresetn := follows.hresetn
  sized := follows.sized
  core := by
    rw [Slave.posedge_core, follows.registers, follows.core]
    rfl
  registers := follows.settled
  settled := by
    rw [Slave.dataInput_posedge layout core slave follows.hresetn
      follows.sized, follows.settled, follows.hwdata]
    split
    next writes => exact (store_eq_self_iff ..).2 (harmless writes)
    next => rfl
  hwdata := follows.hwdata
  read := follows.read
  written := follows.written

theorem idle (follows : Follows layout latest data slave memory) :
    Follows layout latest data (slave.posedge layout core)
      (memory.edge core) := by
  refine follows.posedge core fun writes => ?_
  cases same : latest with
  | none => exact follows.written same
  | some addr =>
      have quiet := (follows.read addr same).1
      rw [Slave.ahbWriteEn, quiet, Bool.and_false] at writes
      cases writes

/-- Selecting the slave for a read leaves what it is about to store. -/
theorem selectRead (follows : Follows layout latest data slave memory) :
    Follows layout (some slave.bus.haddr) data (slave.select false) memory where
  hresetn := follows.hresetn
  sized _ := rfl
  core := follows.core
  registers := follows.registers
  settled := follows.settled
  hwdata := follows.hwdata
  read _ same := ⟨rfl, Option.some.inj same⟩
  written := nofun

theorem driveAddr (follows : Follows layout latest data slave memory)
    (reading : slave.bus.hwrite = false) (addr : BitVec 32) :
    Follows layout (some addr) data (slave.driveAddr addr) memory where
  hresetn := follows.hresetn
  sized := follows.sized
  core := follows.core
  registers := follows.registers
  settled := follows.settled
  hwdata := follows.hwdata
  read _ same := ⟨reading, Option.some.inj same⟩
  written := nofun

/-- A read shows the register it addresses and changes nothing. -/
theorem read_agrees (follows : Follows layout latest data slave memory)
    (addr : BitVec 32) :
    (slave.perform layout core (.read addr)).1 =
        (memory.perform layout core (.read addr)).1 ∧
      Follows layout (some addr) data
        (slave.perform layout core (.read addr)).2
        (memory.perform layout core (.read addr)).2 := by
  have first := follows.selectRead.idle core
  have second := first.idle core
  have addressed := second.driveAddr rfl addr
  have third := addressed.idle core
  have shown := Slave.posedge_hrdata layout core _ addressed.hresetn
    (by simp [Slave.driveAddr, Slave.posedge, Slave.readEnable,
      Slave.ahbReadEn, Slave.ahbTransValid, Slave.select, follows.hresetn])
    (by rfl)
  refine ⟨?_, third⟩
  simp only [Slave.perform, Slave.ahbRead, Slave.wait, Memory.perform,
    Memory.wait, List.cons_append, List.nil_append]
  rw [first.view core, second.view core, third.view core, shown,
    addressed.view core]
  rfl

/-- Selecting the slave for a write, when repeating what the bus says does no
harm. -/
theorem selectWrite (follows : Follows layout latest data slave memory)
    (harmless : HoldsLatest layout memory.settled slave.bus.haddr data) :
    Follows layout none data (slave.select true) memory where
  hresetn := follows.hresetn
  sized _ := rfl
  core := follows.core
  registers := follows.registers
  settled := follows.settled
  hwdata := follows.hwdata
  read := nofun
  written _ := harmless

/-- What the second edge of a write stores. -/
theorem selectWrite_registers
    (follows : Follows layout latest data slave memory) :
    (((slave.select true).posedge layout core).posedge layout
        core).registers =
      layout.store memory.settled (offset slave.bus.haddr) data := by
  have writes : (slave.select true).ahbWriteEn = true := rfl
  rw [Slave.posedge_registers,
    Slave.dataInput_posedge layout core (slave.select true) follows.hresetn
      fun _ => rfl,
    if_pos writes, Slave.select_dataInput, follows.settled]
  change layout.store memory.settled (offset slave.bus.haddr)
    slave.bus.hwdata = _
  rw [follows.hwdata]

/-- The address and, one period later, the data. -/
theorem sends (follows : Follows layout none data slave memory)
    (writes : slave.ahbWriteEn = true) (sized : slave.bus.hsize = 0b010)
    (addr data' : BitVec 32) :
    ((slave.driveAddr addr).posedge layout core).view core =
        (memory.edge core).view core ∧
      Follows layout none data'
        (((slave.driveAddr addr).posedge layout core).driveData data')
        { memory.edge core with
          pending := (layout.decodeWrite (offset addr)).map (·, data') } := by
  have registers : ((slave.driveAddr addr).posedge layout core).registers =
      (memory.edge core).registers := follows.settled
  have cores : ((slave.driveAddr addr).posedge layout core).core =
      (memory.edge core).core := by
    change core.step slave.registers slave.core = _
    rw [follows.registers, follows.core]
    rfl
  have stored : Memory.settled { memory.edge core with
        pending := (layout.decodeWrite (offset addr)).map (·, data') } =
      layout.store memory.settled (offset addr) data' := by
    unfold Layout.store
    cases decoded : layout.decodeWrite (offset addr) with
    | none => rfl
    | some register => rfl
  refine ⟨?_, ?_⟩
  · unfold Slave.view Memory.view
    rw [registers, cores]
  · refine ⟨follows.hresetn, fun _ => sized, cores, registers, ?_, rfl, nofun,
      fun _ => ?_⟩
    · rw [Slave.dataInput_driveData layout core (slave.driveAddr addr)
        follows.hresetn writes sized data', Slave.driveAddr_dataInput,
        follows.settled, stored]
      rfl
    · rw [stored]
      exact holdsLatest_store layout memory.settled addr data'

/-- The write itself. -/
theorem write (follows : Follows layout latest data slave memory)
    (harmless : HoldsLatest layout memory.settled slave.bus.haddr data)
    (addr data' : BitVec 32) :
    (slave.perform layout core (.write addr data')).1 =
        (memory.perform layout core (.write addr data')).1 ∧
      Follows layout none data'
        (slave.perform layout core (.write addr data')).2
        (memory.perform layout core (.write addr data')).2 := by
  have first : Follows layout none data
      ((slave.select true).posedge layout core) (memory.edge core) :=
    (follows.selectWrite harmless).idle core
  have second : Follows layout none data
      (((slave.select true).posedge layout core).posedge layout core)
      ((memory.edge core).edge core) :=
    first.idle core
  obtain ⟨third, sent⟩ := second.sends core rfl rfl addr data'
  refine ⟨?_, sent⟩
  simp only [Slave.perform, Slave.ahbWrite, Slave.wait, Memory.perform,
    Memory.wait, List.cons_append, List.nil_append]
  rw [first.view core, second.view core, third]

/-- The edges of a write agree exactly when repeating what the bus says does no
harm. -/
theorem harmless_of_write (follows : Follows layout latest data slave memory)
    {addr data' : BitVec 32}
    (same : (slave.perform layout core (.write addr data')).1 =
      (memory.perform layout core (.write addr data')).1) :
    HoldsLatest layout memory.settled slave.bus.haddr data := by
  simp only [Slave.perform, Slave.ahbWrite, Slave.wait, Memory.perform,
    Memory.wait, List.cons_append, List.nil_append, List.cons.injEq,
    Observation.edge.injEq] at same
  have registers := congrArg (fun view => view ∘ Sum.inl) same.2.1
  change Slave.registers _ = Memory.registers _ at registers
  rw [follows.selectWrite_registers core] at registers
  exact (store_eq_self_iff ..).1 registers

/-- Whether repeating what the bus says does harm depends on the last read
only. -/
theorem holdsLatest_iff (follows : Follows layout latest data slave memory) :
    HoldsLatest layout memory.settled slave.bus.haddr data ↔
      ∀ previous, latest = some previous →
        HoldsLatest layout memory.settled previous data := by
  constructor
  · intro harmless previous same
    rwa [(follows.read previous same).2] at harmless
  · intro harmless
    cases same : latest with
    | none => exact follows.written same
    | some previous =>
        rw [(follows.read previous same).2]
        exact harmless previous same

/-- From a common state the two conduct themselves alike exactly when the
sequence is harmless. -/
theorem conduct_eq_iff (follows : Follows layout latest data slave memory)
    (script : List Activity) :
    slave.conduct layout core script = memory.conduct layout core script ↔
      Harmless layout memory.settled latest data script := by
  induction script generalizing slave memory latest data with
  | nil => exact iff_of_true rfl trivial
  | cons activity rest inductionHypothesis =>
      cases activity with
      | idle =>
          have later := follows.idle core
          rw [Slave.conduct, Memory.conduct, Harmless]
          simp only [Slave.perform, Memory.perform, Slave.wait, Memory.wait]
          rw [later.view core, List.append_right_inj]
          exact inductionHypothesis later
      | read addr =>
          obtain ⟨same, later⟩ := follows.read_agrees core addr
          rw [Slave.conduct, Memory.conduct, Harmless, same,
            List.append_right_inj]
          exact inductionHypothesis later
      | write addr data' =>
          have assigned : (memory.perform layout core
              (.write addr data')).2.settled =
                layout.store memory.settled (offset addr) data' := by
            unfold Layout.store
            cases decoded : layout.decodeWrite (offset addr) with
            | none => simp [Memory.perform, Memory.wait, Memory.settled,
                Memory.edge, decoded]
            | some register => simp [Memory.perform, Memory.wait,
                Memory.settled, Memory.edge, decoded]
          rw [Slave.conduct, Memory.conduct, Harmless,
            ← follows.holdsLatest_iff, ← assigned]
          constructor
          · intro same
            have harmless := follows.harmless_of_write core
              (List.append_inj same rfl).1
            have later := (follows.write core harmless addr data').2
            exact ⟨harmless,
              (inductionHypothesis later).1 (List.append_inj same rfl).2⟩
          · rintro ⟨harmless, remains⟩
            obtain ⟨same, later⟩ := follows.write core harmless addr data'
            rw [same, (inductionHypothesis later).2 remains]

end Follows

end Follows

/-! ## The two accelerators -/

inductive Peripheral : Type
  | sm3
  | sm4

namespace Peripheral

def Register : Peripheral → Type
  | sm3 => Sm3Register
  | sm4 => Sm4Register

def Output : Peripheral → Type
  | sm3 => Sm3Output
  | sm4 => Sm4Output

instance : (peripheral : Peripheral) → DecidableEq peripheral.Register
  | sm3 => inferInstanceAs (DecidableEq Sm3Register)
  | sm4 => inferInstanceAs (DecidableEq Sm4Register)

def layout : (peripheral : Peripheral) →
    Layout peripheral.Register peripheral.Output
  | sm3 => sm3Layout
  | sm4 => sm4Layout

end Peripheral

/-- The register file after the reset. -/
def Memory.boot (layout : Layout W O) (core : Core W O κ) (start : κ) :
    Memory W κ where
  registers register := (layout.reset register).getD 0
  pending := none
  core := (Slave.boot layout core start).core

/-- After the reset, what address 0 leads to is as clear as the data bus. -/
theorem follows_boot (peripheral : Peripheral)
    (core : Core peripheral.Register peripheral.Output κ) (start : κ) :
    Follows peripheral.layout none 0
      (Slave.boot peripheral.layout core start)
      (Memory.boot peripheral.layout core start) := by
  have registers : (Slave.boot peripheral.layout core start).registers =
      (Memory.boot peripheral.layout core start).registers := by
    funext register
    change (peripheral.layout.reset register).getD
      ((peripheral.layout.reset register).getD 0) = _
    cases assigned : peripheral.layout.reset register <;>
      simp [Memory.boot, assigned]
  refine ⟨rfl, nofun, rfl, registers, registers, rfl, nofun, fun _ => ?_⟩
  intro register decoded
  cases peripheral with
  | sm3 =>
      have zero : sm3Layout.decodeWrite (offset 0) = some (.xIn 0) := by
        decide
      change sm3Layout.decodeWrite (offset 0) = some register at decoded
      rw [zero] at decoded
      cases decoded
      rfl
  | sm4 =>
      have zero : sm4Layout.decodeWrite (offset 0) = some (.xIn 0) := by
        decide
      change sm4Layout.decodeWrite (offset 0) = some register at decoded
      rw [zero] at decoded
      cases decoded
      rfl

/-- A slave conducts itself like a register file, at every edge and in every
reply, exactly when no write comes right after a read of a register that can
be written and that holds anything but what was written last. -/
theorem conduct_boot_eq_iff (peripheral : Peripheral)
    (core : Core peripheral.Register peripheral.Output κ) (start : κ)
    (script : List Activity) :
    (Slave.boot peripheral.layout core start).conduct peripheral.layout core
          script =
        (Memory.boot peripheral.layout core start).conduct peripheral.layout
          core script ↔
      Harmless peripheral.layout
        (Memory.boot peripheral.layout core start).registers none 0 script :=
  (follows_boot peripheral core start).conduct_eq_iff core script

/-- The data of the reads. -/
def replies : List (Observation W O) → List (BitVec 32) :=
  List.filterMap fun
    | .edge _ => none
    | .reply data => some data

/-- A machine that does nothing. -/
def inert : Core W O Unit where
  step _ _ := ()
  output _ _ := 0

/-- `x_in_1` is read between writes of `x_in_0` and `x_in_2` and then holds
what was written to `x_in_0`. -/
theorem not_conduct_eq_writeAfterRead :
    let script : List Activity :=
      [.write 0x0 5, .read 0x4, .write 0x8 7, .read 0x4]
    replies ((Slave.boot sm4Layout inert ()).conduct sm4Layout inert script) =
        [0, 5] ∧
      replies ((Memory.boot sm4Layout inert ()).conduct sm4Layout inert
        script) = [0, 0] := by
  decide

end Ahb

end RiscvVp
