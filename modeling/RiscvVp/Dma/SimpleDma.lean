import Mathlib
import RiscvVp.Storage.Placement

/-!
# The DMA controller

`dma.h`.  A write to the register of the operation notifies an event, and the
thread that waits for the event performs the operation.  A copy is a sequence of
transactions, and the thread waits after each of them while the registers can be
written.
-/

namespace RiscvVp

namespace Dma

open Storage

abbrev Byte : Type := BitVec 8

abbrev Word : Type := BitVec 32

/-- Where the memory is on the bus. -/
structure Ram where
  start : ℕ
  size : ℕ
  addressable : start + size ≤ 2 ^ 32

/-- The transaction is for the memory and does not leave it. -/
def Ram.Serves (ram : Ram) (addr : Word) (numBytes : ℕ) : Prop :=
  ram.start ≤ addr.toNat ∧ addr.toNat < ram.start + ram.size ∧
    addr.toNat + numBytes ≤ ram.start + ram.size

instance (ram : Ram) (addr : Word) (numBytes : ℕ) :
    Decidable (ram.Serves addr numBytes) :=
  inferInstanceAs (Decidable (_ ∧ _))

def opNop : Word := 0

def opMemcpy : Word := 1

/-- The registers in `addr_to_reg`. -/
inductive Register : Type
  | src
  | dst
  | len
  | op
  deriving DecidableEq, Repr

def addrToReg (addr : BitVec 64) : Option Register :=
  if addr = 0 then some .src
  else if addr = 4 then some .dst
  else if addr = 8 then some .len
  else if addr = 12 then some .op
  else none

/-- Where the thread waits: for the event, or for the delay of a transaction of the
block at `off`, when `n` bytes are left. -/
inductive Thread : Type
  | waiting
  | reading (n off : Word)
  | writing (n off : Word)
  deriving DecidableEq, Repr

structure SimpleDma where
  buffer : ℕ → Byte := fun _ => 0
  regs : Register → Word := fun _ => 0
  /-- `run_event` is notified. -/
  notified : Bool := false
  thread : Thread := .waiting
  /-- how often `gateway_trigger_interrupt` was called -/
  interrupts : ℕ := 0
  memory : ℕ → Byte

/-- `buffer.size()` -/
def bufferSize : ℕ := 64

/-- The size of the next block. -/
def blockSize (n : Word) : ℕ := if n.toNat > bufferSize then bufferSize else n.toNat

namespace SimpleDma

/-- The first transaction of `_copy_block`. -/
def readBlock (ram : Ram) (n off : Word) (dma : SimpleDma) : Option SimpleDma :=
  let addr := dma.regs .src + off
  if ram.Serves addr (blockSize n) then
    some { dma with
      buffer := overwrite dma.buffer 0 (blockSize n) fun index =>
        dma.memory (addr.toNat + index)
      thread := .reading n off }
  else none

/-- The second transaction of `_copy_block`. -/
def writeBlock (ram : Ram) (n off : Word) (dma : SimpleDma) : Option SimpleDma :=
  let addr := dma.regs .dst + off
  if ram.Serves addr (blockSize n) then
    some { dma with
      memory := overwrite dma.memory addr.toNat (blockSize n) dma.buffer
      thread := .writing n off }
  else none

/-- The end of a round of `run`. -/
def finish (dma : SimpleDma) : SimpleDma :=
  { dma with interrupts := dma.interrupts + 1, thread := .waiting }

/-- The event is triggered: the thread starts the operation if it waits for it;
`none` when an assertion fails. -/
def trigger (ram : Ram) (dma : SimpleDma) : Option SimpleDma :=
  if dma.notified then
    let triggered := { dma with notified := false }
    if dma.thread = .waiting then
      if dma.regs .op = opNop then some triggered.finish
      else if dma.regs .op = opMemcpy then
        triggered.readBlock ram (dma.regs .len) 0
      else none
    else some triggered
  else none

/-- The delay of a transaction has passed. -/
def resume (ram : Ram) (dma : SimpleDma) : Option SimpleDma :=
  match dma.thread with
  | .waiting => none
  | .reading n off => dma.writeBlock ram n off
  | .writing n off =>
      if n.toNat > bufferSize then dma.readBlock ram (n - 64) (off + 64)
      else some dma.finish

/-- `transport` of a write. -/
def write (addr : BitVec 64) (length value : Word) (dma : SimpleDma) :
    Option SimpleDma :=
  if length = 4 then
    match addrToReg addr with
    | none => none
    | some register =>
        some { dma with
          regs := Function.update dma.regs register value
          notified := dma.notified || addr = 12 }
  else none

/-- `transport` of a read. -/
def read (addr : BitVec 64) (length : Word) (dma : SimpleDma) : Option Word :=
  if length = 4 then (addrToReg addr).map dma.regs else none

end SimpleDma

inductive Event : Type
  | write (addr : BitVec 64) (length value : Word)
  | read (addr : BitVec 64) (length : Word)
  | trigger
  | resume

def SimpleDma.step (ram : Ram) (dma : SimpleDma) : Event → Option SimpleDma
  | .write addr length value => dma.write addr length value
  | .read addr length => (dma.read addr length).map fun _ => dma
  | .trigger => dma.trigger ram
  | .resume => dma.resume ram

end Dma

end RiscvVp
