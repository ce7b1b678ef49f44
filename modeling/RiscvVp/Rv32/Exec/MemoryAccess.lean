import Mathlib
import RiscvVp.Rv32.Action

/-!
# Loads, stores and atomics

In the timing build a store reserves its addresses and a load is charged for
overlapping them.  The read-modify-write instructions are the same in both
builds.
-/

namespace RiscvVp

namespace Rv32

namespace Exec

open Body

variable (cfg : Config) (instr : Instruction)

/-! ## Memory accesses of one width -/

def loadData (bytes : Nat) (addr : BitVec 32) : Body (BitVec (8 * bytes)) :=
  act (.loadData bytes (addr.setWidth 64))

def storeData (bytes : Nat) (addr : BitVec 32)
    (data : BitVec (8 * bytes)) : Body Unit :=
  act (.storeData bytes (addr.setWidth 64) data)

/-- `load_byte`, `load_half` and `load_word` sign-extend. -/
def loadSigned (bytes : Nat) (addr : BitVec 32) : Body (BitVec 32) := do
  let value ← loadData bytes addr
  pure (value.signExtend 32)

/-- `load_ubyte` and `load_uhalf` zero-extend. -/
def loadUnsigned (bytes : Nat) (addr : BitVec 32) : Body (BitVec 32) := do
  let value ← loadData bytes addr
  pure (value.setWidth 32)

/-- The alignment check, which the byte accesses do not make. -/
def checkAlignment (bytes : Nat) (isLoad : Bool) (addr : BitVec 32) :
    Body Unit :=
  if bytes = 1 then pure () else trapCheckAddrAlignment bytes isLoad addr

def addressRange (bytes : Nat) (addr : BitVec 32) : Timing.Range :=
  ⟨addr, addr + BitVec.ofNat 32 bytes⟩

/-! ## Stores -/

/-- A store of `bytes` bytes. -/
def store (bytes : Nat) : Body Unit :=
  if cfg.pipelineTiming then do
    let base ← read instr.rs1
    let addr := base + instr.sImm
    checkAlignment bytes false addr
    let value ← read instr.rs2
    storeData bytes addr (value.setWidth (8 * bytes))
    act (.pipeline (.reserveStore (addressRange bytes addr) 2))
  else do
    let base ← reg instr.rs1
    let addr := base + instr.sImm
    checkAlignment bytes false addr
    let value ← reg instr.rs2
    storeData bytes addr (value.setWidth (8 * bytes))

def sb : Body Unit := store cfg instr 1

def sh : Body Unit := store cfg instr 2

def sw : Body Unit := store cfg instr 4

/-! ## Loads -/

/-- A load of `bytes` bytes through `fetch`, with its latency. -/
def load (bytes : Nat) (fetch : BitVec 32 → Body (BitVec 32))
    (latency : Nat) (positive : 0 < latency) : Body Unit :=
  if cfg.pipelineTiming then do
    let base ← read instr.rs1
    let addr := base + instr.iImm
    checkAlignment bytes true addr
    let value ← fetch addr
    write instr.rd value
    act (.pipeline
      (.doLoad (addressRange bytes addr) instr.rd latency positive))
  else do
    let base ← reg instr.rs1
    let addr := base + instr.iImm
    checkAlignment bytes true addr
    let value ← fetch addr
    setReg instr.rd value

def lb : Body Unit := load cfg instr 1 (loadSigned 1) 3 (by decide)

def lh : Body Unit := load cfg instr 2 (loadSigned 2) 3 (by decide)

def lw : Body Unit := load cfg instr 4 (loadSigned 4) 2 (by decide)

def lbu : Body Unit := load cfg instr 1 (loadUnsigned 1) 3 (by decide)

def lhu : Body Unit := load cfg instr 2 (loadUnsigned 2) 3 (by decide)

/-! ## Load-reserved and store-conditional -/

def atomicLoadReservedWord (addr : BitVec 32) : Body (BitVec 32) :=
  act (.atomicLoadReservedWord (addr.setWidth 64))

def atomicStoreConditionalWord (addr value : BitVec 32) : Body Bool :=
  act (.atomicStoreConditionalWord (addr.setWidth 64) value)

/-- This instruction and sixteen more. -/
def lrScWindow : Int := 17

/-- The timing build restarts the window unconditionally. -/
def lrW : Body Unit :=
  if cfg.pipelineTiming then do
    requireIsa instr Csr.Misa.a
    let addr ← read instr.rs1
    trapCheckAddrAlignment 4 true addr
    let value ← atomicLoadReservedWord addr
    write instr.rd value
    act (.setLrScCounter lrScWindow)
    act (.pipeline (.doLoad (addressRange 4 addr) instr.rd 2 (by decide)))
  else do
    requireIsa instr Csr.Misa.a
    let addr ← reg instr.rs1
    trapCheckAddrAlignment 4 true addr
    let value ← atomicLoadReservedWord addr
    setReg instr.rd value
    let lrScCounter : Int ← act .lrScCounter
    if lrScCounter = 0 then act (.setLrScCounter lrScWindow)

/-- The destination holds the failure code while the store may still trap. -/
def scW : Body Unit :=
  if cfg.pipelineTiming then do
    requireIsa instr Csr.Misa.a
    let addr ← read instr.rs1
    trapCheckAddrAlignment 4 false addr
    let value ← read instr.rs2
    write instr.rd 1
    let stored ← atomicStoreConditionalWord addr value
    write instr.rd (if stored then 0 else 1)
    act (.setLrScCounter 0)
  else do
    requireIsa instr Csr.Misa.a
    let addr ← reg instr.rs1
    trapCheckAddrAlignment 4 false addr
    let value ← reg instr.rs2
    setReg instr.rd 1
    let stored ← atomicStoreConditionalWord addr value
    setReg instr.rd (if stored then 0 else 1)
    act (.setLrScCounter 0)

/-! ## Atomic memory operations -/

/-- `execute_amo` -/
def executeAmo (operation : BitVec 32 → BitVec 32 → BitVec 32) :
    Body Unit := do
  let addr ← reg instr.rs1
  trapCheckAddrAlignment 4 false addr
  let data : BitVec 32 ← act (.amoLoadWord (addr.setWidth 64))
  let operand ← reg instr.rs2
  act (.atomicStoreWord (addr.setWidth 64) (operation data operand))
  setReg instr.rd data

/-- The ten cases differ in their operation. -/
def amo (operation : BitVec 32 → BitVec 32 → BitVec 32) : Body Unit := do
  requireIsa instr Csr.Misa.a
  executeAmo instr operation

def amoswapW : Body Unit := amo instr fun _ b => b

def amoaddW : Body Unit := amo instr fun a b => a + b

def amoxorW : Body Unit := amo instr fun a b => a ^^^ b

def amoandW : Body Unit := amo instr fun a b => a &&& b

def amoorW : Body Unit := amo instr fun a b => a ||| b

def amominW : Body Unit := amo instr fun a b => if b.slt a then b else a

def amominuW : Body Unit := amo instr fun a b => if b.ult a then b else a

def amomaxW : Body Unit := amo instr fun a b => if a.slt b then b else a

def amomaxuW : Body Unit := amo instr fun a b => if a.ult b then b else a

end Exec

end Rv32

end RiscvVp
