import Mathlib.Data.BitVec

/-!
# The AHB port of the accelerators

`AHB_Socket` drives the signals of the bus, and the slaves `SM4_REG_AHB` and
`SM3_REG_AHB` follow them at the rising edges of the clock.  The period of the
clock is the one the socket waits for, so that one edge falls into every wait.

The slaves differ in their registers only.  What is behind them, `SM4_REG` and
`SM3`, is a clocked machine that reads the registers and drives the read-only
ones.
-/

namespace RiscvVp

namespace Ahb

/-! ## Registers and addresses -/

/-- The registers of a slave and where its addresses lead: `W` are the
registers that the bus writes, `O` those that it only reads. -/
structure Layout (W O : Type) where
  /-- the addresses in `control_signal_input` and `data_input` -/
  decodeWrite : BitVec 12 → Option W
  /-- the addresses in `data_output` -/
  decodeRead : BitVec 12 → Option (W ⊕ O)
  /-- what the reset assigns; it leaves some registers alone -/
  reset : W → Option (BitVec 32)
  reads_written : ∀ {addr register}, decodeWrite addr = some register →
    decodeRead addr = some (.inl register)

/-- The register of the address, if it has one, takes the data. -/
def Layout.store {W O : Type} [DecidableEq W] (layout : Layout W O)
    (registers : W → BitVec 32) (addr : BitVec 12) (data : BitVec 32) :
    W → BitVec 32 :=
  match layout.decodeWrite addr with
  | some register => Function.update registers register data
  | none => registers

inductive Sm4Register : Type
  | controlSignal
  | xIn (i : BitVec 2)
  deriving DecidableEq

inductive Sm4Output : Type
  | stateSignal
  | yOut (i : BitVec 2)
  deriving DecidableEq

/-- The addresses of `SM4_REG_AHB`. -/
def sm4Layout : Layout Sm4Register Sm4Output where
  decodeWrite addr :=
    if addr = 0x020 then some .controlSignal
    else if addr.extractLsb' 4 8 = 0 then
      some (.xIn (addr.extractLsb' 2 2))
    else none
  decodeRead addr :=
    if addr = 0x020 then some (.inl .controlSignal)
    else if addr = 0x024 then some (.inr .stateSignal)
    else if addr.extractLsb' 4 8 = 0 then
      some (.inl (.xIn (addr.extractLsb' 2 2)))
    else if addr.extractLsb' 4 8 = 1 then
      some (.inr (.yOut (addr.extractLsb' 2 2)))
    else none
  reset
    | .controlSignal => some 0xffffffff
    | .xIn _ => some 0
  reads_written {addr register} written := by
    split at written
    next control =>
      cases written
      rw [if_pos control]
    next other =>
      split at written
      next data =>
        cases written
        have apart : addr ≠ 0x024 := by
          rintro rfl
          exact absurd data (by decide)
        rw [if_neg other, if_neg apart, if_pos data]
      next => cases written

inductive Sm3Register : Type
  | sm3RstSignal
  | sm3OptSignal
  | xIn (i : BitVec 4)
  deriving DecidableEq

inductive Sm3Output : Type
  | vReadySignal
  | yOut (i : BitVec 3)
  deriving DecidableEq

/-- The addresses of `SM3_REG_AHB`.  The reset clears the first four message
registers only. -/
def sm3Layout : Layout Sm3Register Sm3Output where
  decodeWrite addr :=
    if addr = 0x060 then some .sm3RstSignal
    else if addr = 0x064 then some .sm3OptSignal
    else if addr.extractLsb' 6 6 = 0 then
      some (.xIn (addr.extractLsb' 2 4))
    else none
  decodeRead addr :=
    if addr = 0x060 then some (.inl .sm3RstSignal)
    else if addr = 0x064 then some (.inl .sm3OptSignal)
    else if addr = 0x068 then some (.inr .vReadySignal)
    else if addr.extractLsb' 6 6 = 0 then
      some (.inl (.xIn (addr.extractLsb' 2 4)))
    else if addr.extractLsb' 5 7 = 2 then
      some (.inr (.yOut (addr.extractLsb' 2 3)))
    else none
  reset
    | .sm3RstSignal => some 0xffffffff
    | .sm3OptSignal => some 0xffffffff
    | .xIn i => if i < 4 then some 0 else none
  reads_written {addr register} written := by
    split at written
    next rst =>
      cases written
      rw [if_pos rst]
    next notRst =>
      split at written
      next opt =>
        cases written
        rw [if_neg notRst, if_pos opt]
      next notOpt =>
        split at written
        next data =>
          cases written
          have apart : addr ≠ 0x068 := by
            rintro rfl
            exact absurd data (by decide)
          rw [if_neg notRst, if_neg notOpt, if_neg apart, if_pos data]
        next => cases written

/-- What is behind the registers: it takes a step at every edge and drives the
read-only registers. -/
structure Core (W O κ : Type) where
  step : (W → BitVec 32) → κ → κ
  output : κ → O → BitVec 32

/-! ## Signals -/

/-- The signals that the socket drives, and the reset. -/
structure Bus where
  hresetn : Bool := false
  hwrite : Bool := false
  hsel : Bool := false
  htrans : BitVec 2 := 0
  hsize : BitVec 3 := 0
  haddr : BitVec 32 := 0
  hwdata : BitVec 32 := 0

/-- `range(11,0)` -/
def offset (haddr : BitVec 32) : BitVec 12 := haddr.extractLsb' 0 12

/-- The register of an address, as `data_output` finds it. -/
def Layout.value {W O : Type} (layout : Layout W O)
    (view : W ⊕ O → BitVec 32) (addr : BitVec 32) : BitVec 32 :=
  match layout.decodeRead (offset addr) with
  | some register => view register
  | none => 0xffffffff

/-- A slave and the bus in front of it. -/
structure Slave (W κ : Type) where
  bus : Bus
  /-- `SM4_addr` and `SM3_addr` -/
  addr : BitVec 12
  hsizeReg : BitVec 3
  writeEn : Bool
  readEn : Bool
  registers : W → BitVec 32
  hrdata : BitVec 32
  core : κ

namespace Slave

section Methods

variable {W O κ : Type} [DecidableEq W] (layout : Layout W O)
  (core : Core W O κ) (slave : Slave W κ)

/-- `assign_ahb_trans_valid`; the slave is always ready. -/
def ahbTransValid : Bool := slave.bus.hsel && slave.bus.htrans == 0b10

/-- `assign_ahb_write_en` -/
def ahbWriteEn : Bool := slave.ahbTransValid && slave.bus.hwrite

/-- `assign_ahb_read_en` -/
def ahbReadEn : Bool := slave.ahbTransValid && !slave.bus.hwrite

/-- `ahb_addr`, the address. -/
def ahbAddr : BitVec 12 :=
  if slave.bus.hresetn && slave.ahbTransValid then offset slave.bus.haddr
  else 0xfff

/-- `ahb_addr`, the size. -/
def ahbSize : BitVec 3 :=
  if slave.bus.hresetn && slave.ahbTransValid then slave.bus.hsize else 0

/-- `write_enable` -/
def writeEnable : Bool := slave.bus.hresetn && slave.ahbWriteEn

/-- `read_enable` -/
def readEnable : Bool := slave.bus.hresetn && slave.ahbReadEn

/-- `control_signal_input` and `data_input`: the register of the latched
address takes what is on the data bus now. -/
def dataInput : W → BitVec 32 :=
  if !slave.bus.hresetn then fun register =>
    (layout.reset register).getD (slave.registers register)
  else if slave.writeEn && slave.hsizeReg == 0b010 then
    layout.store slave.registers slave.addr slave.bus.hwdata
  else slave.registers

/-- The registers as `data_output` reads them. -/
def view : W ⊕ O → BitVec 32 :=
  Sum.elim slave.registers (core.output slave.core)

/-- `data_output`: the register of the address that is on the bus now. -/
def dataOutput : BitVec 32 :=
  if !slave.bus.hresetn then 0xffffffff
  else if slave.readEn && slave.bus.hsize == 0b010 then
    layout.value (slave.view core) slave.bus.haddr
  else slave.hrdata

/-- A rising edge of `HCLK`: every method reads the signals as they are. -/
def posedge : Slave W κ where
  bus := slave.bus
  addr := slave.ahbAddr
  hsizeReg := slave.ahbSize
  writeEn := slave.writeEnable
  readEn := slave.readEnable
  registers := slave.dataInput layout
  hrdata := slave.dataOutput layout core
  core := core.step slave.registers slave.core

/-- After elaboration. -/
def initial (start : κ) : Slave W κ where
  bus := {}
  addr := 0
  hsizeReg := 0
  writeEn := false
  readEn := false
  registers _ := 0
  hrdata := 0
  core := start

/-- Two edges fall into the reset. -/
def boot (start : κ) : Slave W κ :=
  let slave := ((initial start).posedge layout core).posedge layout core
  { slave with bus := { slave.bus with hresetn := true } }

end Methods

end Slave

/-! ## Transactions -/

/-- What happens on the bus: an edge without a transaction, or a transaction. -/
inductive Activity : Type
  | idle
  | write (addr data : BitVec 32)
  | read (addr : BitVec 32)
  deriving DecidableEq

/-- What can be seen: the registers after an edge, and the data of a read. -/
inductive Observation (W O : Type) : Type
  | edge (registers : W ⊕ O → BitVec 32)
  | reply (data : BitVec 32)

namespace Slave

variable {W O κ : Type} [DecidableEq W] (layout : Layout W O)
  (core : Core W O κ)

/-- Wait for some periods of the clock. -/
def wait : ℕ → Slave W κ → List (Observation W O) × Slave W κ
  | 0, slave => ([], slave)
  | cycles + 1, slave =>
      let later := slave.posedge layout core
      let rest := wait cycles later
      (.edge (later.view core) :: rest.1, rest.2)

/-- The signals that `AHB_write` and `AHB_read` set first. -/
def select (hwrite : Bool) (slave : Slave W κ) : Slave W κ :=
  { slave with
    bus := { slave.bus with
      hsel := true
      htrans := 0b10
      hsize := 0b010
      hwrite := hwrite } }

def driveAddr (haddr : BitVec 32) (slave : Slave W κ) : Slave W κ :=
  { slave with bus := { slave.bus with haddr := haddr } }

def driveData (hwdata : BitVec 32) (slave : Slave W κ) : Slave W κ :=
  { slave with bus := { slave.bus with hwdata := hwdata } }

/-- `AHB_write`: the data follows one period after the address. -/
def ahbWrite (addr data : BitVec 32) (slave : Slave W κ) :
    List (Observation W O) × Slave W κ :=
  let selected := wait layout core 2 (slave.select true)
  let addressed := wait layout core 1 (selected.2.driveAddr addr)
  (selected.1 ++ addressed.1, addressed.2.driveData data)

/-- `AHB_read` -/
def ahbRead (addr : BitVec 32) (slave : Slave W κ) :
    List (Observation W O) × Slave W κ :=
  let selected := wait layout core 2 (slave.select false)
  let addressed := wait layout core 1 (selected.2.driveAddr addr)
  (selected.1 ++ addressed.1 ++ [.reply addressed.2.hrdata], addressed.2)

def perform (slave : Slave W κ) :
    Activity → List (Observation W O) × Slave W κ
  | .idle => wait layout core 1 slave
  | .write addr data => ahbWrite layout core addr data slave
  | .read addr => ahbRead layout core addr slave

/-- All that can be seen of a sequence. -/
def conduct : Slave W κ → List Activity → List (Observation W O)
  | _, [] => []
  | slave, activity :: rest =>
      let performed := slave.perform layout core activity
      performed.1 ++ conduct performed.2 rest

end Slave

end Ahb

end RiscvVp
