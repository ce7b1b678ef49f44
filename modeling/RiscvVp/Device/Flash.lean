import RiscvVp.Bits.Bytes
import RiscvVp.Device.RegisterRange
import RiscvVp.Storage.WriteBack

/-!
# The flash controller

`flash.h`: a controller that shows one block of a device at a time.  The block
is selected through a register and held in a buffer, which is written back when
another block is used.  The checks of an access look at its first byte only, so
a copy that leaves the object it starts in is a fault here.
-/

namespace RiscvVp

namespace Flash

open Bits Storage
open Device (Byte Command)

/-- A register of the controller, as a number and as bytes. -/
abbrev Number : Type := BitVec (8 * 8)

inductive Fault : Type
  | assertion
  /-- "unsupported tlm command" -/
  | unsupportedCommand
  /-- a copy from or to something else than the object -/
  | outOfBounds
  deriving DecidableEq, Repr

/-- `assert(condition)` -/
def assert (condition : Bool) : Except Fault Unit :=
  if condition then .ok () else .error .assertion

/-- What `memcpy` needs of an object of `size` bytes. -/
def span (size position length : ℕ) : Except Fault Unit :=
  if position + length ≤ size then .ok () else .error .outOfBounds

/-! ## `Blockbuffer` -/

/-- `BLOCKSIZE`, the `width` of the buffer. -/
def blockSize : ℕ := 512

/-- The buffer, with the device file behind `fd`. -/
structure Blockbuffer where
  buf : ℕ → Byte
  offs : Number
  dirty : Bool
  active : Bool
  file : ℕ → Byte

/-- `lseek64(fd, blockOffset * width, SEEK_SET)`.  The offset is signed, and a
negative one is refused. -/
def seek (blockOffset : Number) : Option ℕ :=
  let offset := blockOffset * BitVec.ofNat (8 * 8) blockSize
  if offset.msb then none else some offset.toNat

namespace Blockbuffer

variable (buffer : Blockbuffer)

def writeBlock (blockOffset : Number) : Blockbuffer :=
  match seek blockOffset with
  | none => buffer
  | some offset =>
      { buffer with
        file := overwrite buffer.file offset blockSize buffer.buf
        dirty := false }

def readBlock (blockOffset : Number) : Blockbuffer :=
  match seek blockOffset with
  | none => buffer
  | some offset =>
      { buffer with
        buf := overwrite buffer.buf 0 blockSize fun index =>
          buffer.file (offset + index)
        dirty := false }

def setPos (blockOffset : Number) : Blockbuffer :=
  if blockOffset ≠ buffer.offs ∨ buffer.active = false then
    let committed :=
      if buffer.dirty = true ∧ buffer.active = true then
        buffer.writeBlock buffer.offs
      else buffer
    let loaded :=
      { committed with offs := blockOffset }.readBlock blockOffset
    { loaded with active := true }
  else buffer

/-- `setData`; the position and the length are 16 bits wide. -/
def setData (source : ℕ → Byte) (pos length : BitVec 16) :
    Except Fault Blockbuffer := do
  assert buffer.active
  span blockSize pos.toNat length.toNat
  return { buffer with
    buf := overwrite buffer.buf pos.toNat length.toNat source
    dirty := true }

/-- `getData`: what is at `target` afterwards. -/
def getData (target : ℕ → Byte) (pos length : BitVec 16) :
    Except Fault (ℕ → Byte) := do
  assert buffer.active
  span blockSize pos.toNat length.toNat
  return overwrite target 0 length.toNat fun index =>
    buffer.buf (pos.toNat + index)

def clear : Blockbuffer :=
  if buffer.active = true ∧ buffer.dirty = true then
    { buffer.writeBlock buffer.offs with active := false }
  else { buffer with active := false }

end Blockbuffer

/-! ## `Flashcontroller` -/

def flashSizeReg : ℕ := 8

def dataAddr : ℕ := 16

def addrSpace : ℕ := dataAddr + blockSize

structure Flashcontroller where
  blockBuf : Blockbuffer
  mTargetBlock : Number
  mDeviceNumBlocks : Number

/-- `tlm_generic_payload`; `data` is the memory of the host from the data
pointer on. -/
structure Transaction where
  command : Command
  address : BitVec 64
  dataLength : BitVec 32
  data : ℕ → Byte

namespace Flashcontroller

/-- The size of a block device comes from `ioctl`, in bytes; that of a plain file
from `lseek64`. -/
def numBlocks (blkGetSize64 : Option Number) (seekEnd : Number) : Number :=
  match blkGetSize64 with
  | some size => size
  | none => seekEnd / BitVec.ofNat (8 * 8) blockSize

/-- After the constructor, when it has found its file.  The buffer has not been
initialised. -/
def construct (file buf : ℕ → Byte) (blkGetSize64 : Option Number)
    (seekEnd : Number) : Flashcontroller where
  blockBuf := ⟨buf, 0, false, false, file⟩
  mTargetBlock := 0
  mDeviceNumBlocks := numBlocks blkGetSize64 seekEnd

variable (flash : Flashcontroller)

/-- The data region of `transport`. -/
def transportData (access : Transaction) (addr : ℕ) :
    Except Fault (Flashcontroller × (ℕ → Byte)) := do
  assert (decide (flash.mTargetBlock < flash.mDeviceNumBlocks))
  let blockBuf := flash.blockBuf.setPos flash.mTargetBlock
  let pos := BitVec.ofNat 16 (addr - dataAddr)
  let len := access.dataLength.setWidth 16
  match access.command with
  | .write => do
      let blockBuf ← blockBuf.setData access.data pos len
      return ({ flash with blockBuf := blockBuf }, access.data)
  | .read => do
      let data ← blockBuf.getData access.data pos len
      return ({ flash with blockBuf := blockBuf }, data)
  | .ignore => .error .unsupportedCommand

/-- `transport`: the controller and the data afterwards.  `addr` is an
`unsigned`. -/
def transport (access : Transaction) :
    Except Fault (Flashcontroller × (ℕ → Byte)) := do
  let addr := (access.address.setWidth 32).toNat
  let len := access.dataLength.toNat
  assert (decide (addr < addrSpace))
  if addr < flashSizeReg then
    match access.command with
    | .write => do
        span 8 addr len
        return ({ flash with
          mTargetBlock := copyInto flash.mTargetBlock addr len access.data },
          access.data)
    | .read => do
        span 8 addr len
        return (flash, overwrite access.data 0 len fun index =>
          byte flash.mTargetBlock (addr + index))
    | .ignore => .error .unsupportedCommand
  else if addr < dataAddr then
    match access.command with
    | .read => do
        span 8 (addr - flashSizeReg) len
        return (flash, overwrite access.data 0 len fun index =>
          byte flash.mDeviceNumBlocks (addr - flashSizeReg + index))
    | _ => .error .unsupportedCommand
  else flash.transportData access addr

/-- `~Flashcontroller` -/
def destroy : Flashcontroller :=
  { flash with blockBuf := flash.blockBuf.clear }

/-- One access after another: the controller at the end, and what each access
left at its data pointer. -/
def run (flash : Flashcontroller) :
    List Transaction → Except Fault (Flashcontroller × List (ℕ → Byte))
  | [] => .ok (flash, [])
  | access :: rest => do
      let (flash, data) ← flash.transport access
      let (last, others) ← flash.run rest
      return (last, data :: others)

end Flashcontroller

end Flash

end RiscvVp
