import Mathlib
import RiscvVp.Gdb.Packets
import RiscvVp.Gdb.Session
import RiscvVp.Gdb.Tagging
import RiscvVp.Interaction.Machine

/-!
# The packet handlers

`GDBServer::run` on one packet, with the handlers of `handler.cpp` and with
`DebugMemoryInterface`.  The harts, their translation and the debug port of the
bus are surroundings that the server makes requests to; each reply is what the
call comes to.  What is written to the socket is written down.
-/

namespace RiscvVp

namespace Gdb

open Interaction

/-! ## Surroundings -/

/-- What `v2p` comes to. -/
inductive Translation : Type
  | address (paddr : BitVec 64)
  /-- `raise_trap` -/
  | trap
  | assertion
  /-- a wait for the bus lock that does not end -/
  | blocked

/-- What `transport_dbg` comes to, and the buffer afterwards. -/
inductive Transport (size : ℕ) : Type
  | returned (isResponseError : Bool) (nbytes : BitVec 32)
      (buffer : Fin size → Byte)
  | assertion

/-- The statuses with which `run_threads` returns: a hart has stopped. -/
def Stopped {ι : Type} (hartsrun : List ι) : Type :=
  { status : ι → CoreExecStatus // ∃ hart ∈ hartsrun, status hart ≠ .runnable }

inductive Request (ι : Type) : Type
  | registers (hart : ι)
  | programCounter (hart : ι)
  | status (hart : ι)
  | setStatus (hart : ι) (status : CoreExecStatus)
  | insertBreakpoint (hart : ι) (address : BitVec 64)
  | removeBreakpoint (hart : ι) (address : BitVec 64)
  | v2p (hart : ι) (vaddr : BitVec 64) (type : MemoryAccessType)
  | readDbg (address : BitVec 64) (nbytes : BitVec 32)
  | writeDbg (address : BitVec 64) (data : List Byte)
  | runThreads (hartsrun : List ι) (single : Bool)

def Request.Reply {ι : Type} : Request ι → Type
  | .registers _ => Fin 32 → BitVec 64
  | .programCounter _ => BitVec 64
  | .status _ => CoreExecStatus
  | .setStatus _ _ => Unit
  | .insertBreakpoint _ _ => Unit
  | .removeBreakpoint _ _ => Unit
  | .v2p _ _ _ => Translation
  | .readDbg _ nbytes => Transport nbytes.toNat
  | .writeDbg _ data => Transport data.length
  | .runThreads hartsrun _ => Option (Stopped hartsrun)

/-- What the server is built for. -/
structure Targets (ι : Type) where
  harts : List ι
  /-- the constructor throws if there are none -/
  nonempty : harts ≠ []
  hartId : ι → ℕ
  architecture : Architecture
  /-- the harts come with their MMUs -/
  translates : Bool

/-! ## The server -/

inductive Sent : Type
  | ack
  | nack
  | packet (serialized : List Byte)
  deriving DecidableEq, Repr

structure Stub where
  threadOps : Byte → Option ℤ
  /-- as it was serialised -/
  prevpkt : Option (List Byte)
  /-- the latest first -/
  sent : List Sent

/-- After the constructor. -/
def Stub.boot : Stub where
  threadOps _ := none
  prevpkt := none
  sent := []

/-- The exceptions. -/
inductive Thrown : Type
  | outOfRange
  | invalidArgument
  | runtimeError
  | simulationTrap
  deriving DecidableEq, Repr

/-- How the server ends, or comes to a halt. -/
inductive Ending : Type
  | exit
  | assertion
  | stuck
  /-- a member of the union is read that was not set, or a sum overflows -/
  | undefined
  /-- `gdb_serialize` does not return -/
  | unserialized
  deriving DecidableEq, Repr

abbrev StubM (ι : Type) (α : Type) : Type :=
  Machine (Request.Reply (ι := ι)) Stub Thrown Ending α

section Output

variable {ι : Type}

def send (message : Sent) : StubM ι Unit :=
  Machine.modifies fun stub => { stub with sent := message :: stub.sent }

/-- The packet is written, and kept for `retransmit`. -/
def Stub.post (serialized : List Byte) (stub : Stub) : Stub :=
  { stub with
    sent := .packet serialized :: stub.sent
    prevpkt := some serialized }

/-- `send_packet` -/
def sendPacket (data : List Byte) : StubM ι Unit :=
  match gdbSerialize .packet (some data) with
  | none => Machine.abort .unserialized
  | some serialized => Machine.modifies (Stub.post serialized)

def retransmit : StubM ι Unit :=
  Machine.modifies fun stub =>
    match stub.prevpkt with
    | some prevpkt => { stub with sent := .packet prevpkt :: stub.sent }
    | none => stub

def e01 : List Byte :=
  text "E01"

/-- `std::to_string` -/
def decimal (value : ℕ) : List Byte :=
  text (toString value)

/-- `setw(2) << hex` -/
def hexByte (byte : Byte) : List Byte :=
  formatCsum byte.toNat

/-- The bytes of the register that are sent: those of `bswap_32` or `bswap_64`
from the highest, which are the value's own from the lowest. -/
def registerBytes (architecture : Architecture) (value : BitVec 64) :
    List Byte :=
  let size := match architecture with
    | .rv32 => 4
    | .rv64 => 8
  (List.range size).map fun i => value.extractLsb' (8 * i) 8

def formatRegister (architecture : Architecture) (value : BitVec 64) :
    List Byte :=
  (registerBytes architecture value).flatMap hexByte

/-- A `try` with one `catch`. -/
def caught {α : Type} (cause : Thrown) (machine : StubM ι α) :
    StubM ι (Option α) :=
  Machine.catchTrap (do return some (← machine)) fun thrown =>
    if thrown = cause then pure none else Machine.raise thrown

end Output

section Handlers

variable {ι : Type} [DecidableEq ι] (targets : Targets ι)

/-- `exec_thread`, once the harts are known. -/
def onEach {α : Type} (fn : ι → StubM ι α) : List ι → StubM ι (List α)
  | [] => pure []
  | hart :: rest => do
      let first ← fn hart
      let others ← onEach fn rest
      return first :: others

/-- The harts that `H` or the last stop has selected. -/
def selected (stub : Stub) (op : Byte := ascii 'g') : Option (List ι) :=
  getThreads targets.harts ((stub.threadOps op).getD threadAny)

def execThread {α : Type} (fn : ι → StubM ι α) : StubM ι (List α) := do
  match ← Machine.reads (selected targets ·) with
  | none => Machine.raise .outOfRange
  | some threads => onEach fn threads

def translateAddr (hart : ι) (addr : BitVec 64) (type : MemoryAccessType) :
    StubM ι (BitVec 64) := do
  if targets.translates then
    let translation : Translation ← Machine.request (.v2p hart addr type)
    match translation with
    | .address paddr => return paddr
    | .trap => Machine.raise .simulationTrap
    | .assertion => Machine.abort .assertion
    | .blocked => Machine.abort .stuck
  else return addr

/-- `_do_dbg_transaction` and the assertion on what it returns. -/
def transacted {size : ℕ} (nbytes : BitVec 32) :
    Transport size → StubM ι (Fin size → Byte)
  | .assertion => Machine.abort .assertion
  | .returned isResponseError count buffer => do
      if isResponseError then Machine.raise .runtimeError
      else
        Machine.assert (count = nbytes) .assertion
        return buffer

/-- `DebugMemoryInterface::read_memory` -/
def readDebug (start : BitVec 64) (nbytes : BitVec 32) :
    StubM ι (List Byte) := do
  let reply : Transport nbytes.toNat ← Machine.request (.readDbg start nbytes)
  let buffer ← transacted nbytes reply
  return (List.ofFn buffer).flatMap hexByte

/-- The buffer of `DebugMemoryInterface::write_memory` after its loop, which
ends when `i` reaches the number of bytes. -/
def writeBuffer (nbytes : ℕ) (data : List Byte) : List Byte :=
  (List.range nbytes).map fun j =>
    if 2 * j + 1 < nbytes then
      BitVec.ofNat 8 (digitsValue 16 ((data.drop (2 * j)).take 2))
    else 0

theorem length_writeBuffer (nbytes : ℕ) (data : List Byte) :
    (writeBuffer nbytes data).length = nbytes := by
  simp [writeBuffer]

/-- `DebugMemoryInterface::write_memory` -/
def writeDebug (start : BitVec 64) (nbytes : BitVec 32) (data : List Byte) :
    StubM ι Unit := do
  Machine.assert (data.length % 2 = 0) .assertion
  Machine.assert (data.length / 2 = nbytes.toNat) .assertion
  let buffer := writeBuffer nbytes.toNat data
  let reply : Transport buffer.length ← Machine.request
    (.writeDbg start buffer)
  let _ ← transacted nbytes reply

def haltReason : StubM ι Unit :=
  sendPacket (text "S05")

def getRegisters : StubM ι Unit := do
  let formatted ← execThread targets fun hart => do
    let values : Fin 32 → BitVec 64 ← Machine.request (.registers hart)
    return (List.ofFn values).flatMap (formatRegister targets.architecture)
  sendPacket formatted.flatten

def setThread (hcmd : CmdH) : StubM ι Unit := do
  Machine.modifies fun stub =>
    { stub with
      threadOps := Function.update stub.threadOps hcmd.op (some hcmd.id.tid) }
  sendPacket (text "OK")

def killServer : StubM ι Unit :=
  Machine.abort .exit

/-- `UINT_MAX` -/
def uintMax : ℕ := 2 ^ 32 - 1

def readMemory (mem : Memory) : StubM ι Unit := do
  Machine.assert (mem.length.toNat ≤ uintMax) .assertion
  let retval ← caught .runtimeError (execThread targets fun hart => do
    let addr ← translateAddr targets hart mem.addr .load
    readDebug addr (mem.length.setWidth 32))
  match retval with
  | none => sendPacket e01
  | some parts => sendPacket parts.flatten

def writeMemory (mem : MemoryWrite) : StubM ι Unit := do
  Machine.assert (mem.location.length.toNat ≤ uintMax) .assertion
  let written ← caught .runtimeError (execThread targets fun hart => do
    let addr ← translateAddr targets hart mem.location.addr .store
    writeDebug addr (mem.location.length.setWidth 32) mem.data)
  match written with
  | none => sendPacket e01
  | some _ => sendPacket (text "OK")

/-- `GDB_PC_REG` -/
def pcReg : ℤ := 32

/-- `ISS::read_register`; `RegFile::read` throws beyond `x31`. -/
def readTargetRegister (hart : ι) (index : BitVec 32) :
    StubM ι (BitVec 64) := do
  let values : Fin 32 → BitVec 64 ← Machine.request (.registers hart)
  if bound : index.toNat < 32 then return values ⟨index.toNat, bound⟩
  else Machine.raise .outOfRange

def readRegister (reg : ℤ) : StubM ι Unit := do
  let formatted ← caught .outOfRange (execThread targets fun hart => do
    let regval ←
      if reg = pcReg then Machine.request (.programCounter hart)
      else readTargetRegister hart (BitVec.ofInt 32 reg)
    return formatRegister targets.architecture regval)
  match formatted with
  | none => sendPacket e01
  | some parts => sendPacket parts.flatten

/-- The list of `threadInfo` from some hart on. -/
def threadList : List ι → StubM ι (List Byte)
  | [] => pure []
  | hart :: rest => do
      let status : CoreExecStatus ← Machine.request (.status hart)
      let others ← threadList rest
      if status = .terminated then return others
      else
        let separator := if rest = [] then [] else text ","
        return decimal (targets.hartId hart + 1) ++ separator ++ others

def threadInfo : StubM ι Unit := do
  let list ← threadList targets targets.harts
  sendPacket (text "m" ++ list)

def threadInfoEnd : StubM ι Unit :=
  sendPacket (text "l")

def qAttached : StubM ι Unit :=
  sendPacket (text "0")

/-- with `GDB_PKTSIZ` -/
def qSupported : StubM ι Unit :=
  sendPacket (text "vContSupported+;PacketSize=" ++ decimal 4096)

def isAlive (thread : Thread) : StubM ι Unit :=
  match getThreads targets.harts thread.tid with
  | none => sendPacket e01
  | some _ => sendPacket (text "OK")

/-- `mark runnable again` -/
def clearBreakpoints (status : ι → CoreExecStatus) : List ι → StubM ι Unit
  | [] => pure ()
  | hart :: rest => do
      if status hart = .hitBreakpoint then
        Machine.request (.setStatus hart .runnable)
      clearBreakpoints status rest

/-- `run_threads`, which returns at once for no harts, and the loop over the
harts that it has run. -/
def runThreads (hartsrun : List ι) (single : Bool)
    (stopped : Option (StopReason × ι)) :
    StubM ι (Option (StopReason × ι)) := do
  if hartsrun = [] then return stopped
  else
    let returned : Option (Stopped hartsrun) ←
      Machine.request (.runThreads hartsrun single)
    match returned with
    | none => Machine.abort .stuck
    | some status =>
        clearBreakpoints status.val hartsrun
        return (Session.report hartsrun stopped status.val).1

def StopReason.text : StopReason → List Byte
  | .trap => Gdb.text "05"
  | .quit => Gdb.text "03"

/-- `stopped_thread`, an `int`. -/
def stoppedThread (hart : ι) : ℤ :=
  (BitVec.ofNat 32 (targets.hartId hart + 1)).toInt

/-- What `vCont` does after its loop. -/
def reportStop (stopped : Option (StopReason × ι)) : StubM ι Unit :=
  match stopped with
  | none => Machine.abort .assertion
  | some (reason, hart) => do
      let thread := stoppedThread targets hart
      Machine.assert (1 ≤ thread) .assertion
      Machine.modifies fun stub =>
        { stub with
          threadOps := Function.update stub.threadOps (ascii 'g')
            (some thread) }
      sendPacket (text "T" ++ reason.text ++ text "thread:" ++
        decimal thread.toNat ++ text ";")

/-- The loop of `vCont`. -/
def vContFrom :
    List Vcont → List ι → Option (StopReason × ι) → StubM ι Unit
  | [], _, stopped => reportStop targets stopped
  | vcont :: rest, matched, stopped => do
      if vcont.action ≠ ascii 's' ∧ vcont.action ≠ ascii 'c' then
        Machine.raise .invalidArgument
      else
        match getThreads targets.harts vcont.thread.tid with
        | none => sendPacket e01
        | some threads =>
            let reported ← runThreads
              (threads.filter fun hart => hart ∉ matched)
              (vcont.action = ascii 's') stopped
            let matched :=
              if vcont.thread.tid > 0 then threads ++ matched else matched
            vContFrom rest matched reported

def vCont (actions : List Vcont) : StubM ι Unit :=
  vContFrom targets actions [] none

def vContSupported : StubM ι Unit :=
  sendPacket (text "vCont;c;C")

/-- A request to each hart. -/
def toEach (question : ι → Request ι) (receive : ∀ hart,
    (question hart).Reply → Unit) : List ι → StubM ι Unit
  | [] => pure ()
  | hart :: rest => do
      Machine.request (question hart) (receive hart)
      toEach question receive rest

def removeBreakpoint (bpoint : Breakpoint) : StubM ι Unit := do
  if bpoint.type ≠ .soft then sendPacket []
  else
    toEach (.removeBreakpoint · bpoint.address) (fun _ _ => ()) targets.harts
    sendPacket (text "OK")

def setBreakpoint (bpoint : Breakpoint) : StubM ι Unit := do
  if bpoint.type ≠ .soft then sendPacket []
  else
    toEach (.insertBreakpoint · bpoint.address) (fun _ _ => ()) targets.harts
    sendPacket (text "OK")

/-- A handler with the member of the union that it reads. -/
def handle : Handler → Value → StubM ι Unit
  | .haltReason, _ => haltReason
  | .getRegisters, _ => getRegisters targets
  | .setThread, .hcmd hcmd => setThread hcmd
  | .killServer, _ => killServer
  | .readMemory, .mem mem => readMemory targets mem
  | .writeMemory, .memw mem => writeMemory targets mem
  | .readRegister, .ival reg => readRegister targets reg
  | .qAttached, _ => qAttached
  | .qSupported, _ => qSupported
  | .threadInfo, _ => threadInfo targets
  | .threadInfoEnd, _ => threadInfoEnd
  | .isAlive, .tval thread => isAlive targets thread
  | .vCont, .vval actions => vCont targets actions
  | .vContSupported, _ => vContSupported
  | .removeBreakpoint, .bval bpoint => removeBreakpoint targets bpoint
  | .setBreakpoint, .bval bpoint => setBreakpoint targets bpoint
  | _, _ => Machine.abort .undefined

/-- The part of `GDBServer::run` after the `switch`. -/
def command (packet : Packet) : StubM ι Unit :=
  match gdbParseCmd packet with
  | .error .assertion => Machine.abort .assertion
  | .error .overflow => Machine.abort .undefined
  | .error _ => send .nack
  | .ok cmd => do
      send .ack
      match handlers.lookup cmd.name with
      | none => sendPacket []
      | some handler => handle targets handler cmd.v

/-- `GDBServer::run`, from one wait to the next. -/
def run (packet : Packet) : StubM ι Unit :=
  match packet.kind with
  | .nack => retransmit
  | .ack => pure ()
  | .packet | .notify => command targets packet

end Handlers

end Gdb

end RiscvVp
