import Mathlib

/-!
# The CAN controller

`can.cpp`: the guest writes commands and their operands byte by byte over SPI,
and frames arrive from a socket.  An access with an index out of range has no
result.  The static variables of the functions are fields of the state.
-/

namespace RiscvVp

namespace Mcp2515

abbrev Byte : Type := BitVec 8

/-! The numbers of the buffers and of the bytes of an identifier are literals. -/

theorem neZero_two : NeZero 2 := ⟨by decide⟩

theorem neZero_three : NeZero 3 := ⟨by decide⟩

theorem neZero_four : NeZero 4 := ⟨by decide⟩

attribute [local instance] neZero_two neZero_three neZero_four

/-! ## Instructions and registers -/

def mcpWrite : Byte := 0x02
def mcpRead : Byte := 0x03
def mcpBitmod : Byte := 0x05
def mcpLoadTx0 : Byte := 0x40
def mcpLoadTx1 : Byte := 0x42
def mcpLoadTx2 : Byte := 0x44
def mcpRtsTx0 : Byte := 0x81
def mcpRtsTx1 : Byte := 0x82
def mcpRtsTx2 : Byte := 0x84
def mcpRtsAll : Byte := 0x87
def mcpReadRx0 : Byte := 0x90
def mcpReadRx1 : Byte := 0x94
def mcpReadStatus : Byte := 0xa0
def mcpRxStatus : Byte := 0xb0
def mcpReset : Byte := 0xc0

def mcpTxb0Ctrl : ℕ := 0x30
def mcpRxb1Sidh : ℕ := 0x71

/-- The states that are ever assigned; those of the buffers by the number of the
buffer. -/
inductive State : Type
  | init
  | readRegister
  | writeRegister
  | bitmod
  | loadTx (no : Fin 3)
  | sendTx (no : Fin 3)
  | sendAll
  | readRx (no : Fin 2)
  | getStatus
  deriving DecidableEq, Repr

/-- `CANFD_MAX_DLEN` -/
def maxPayload : ℕ := 64

/-- `MCPFrame` -/
structure McpFrame where
  raw : Fin (5 + maxPayload) → Byte

namespace McpFrame

def id (frame : McpFrame) (index : Fin 4) : Byte :=
  frame.raw (index.castLE (by decide))

def length (frame : McpFrame) : Byte :=
  frame.raw ⟨4, by decide⟩

def payload (frame : McpFrame) (index : Fin maxPayload) : Byte :=
  frame.raw (index.natAdd 5)

def set (frame : McpFrame) (index : Fin (5 + maxPayload)) (byte : Byte) :
    McpFrame :=
  ⟨Function.update frame.raw index byte⟩

/-- `id[index] = byte` -/
def setId (frame : McpFrame) (index : ℕ) (byte : Byte) : Option McpFrame :=
  if inside : index < 4 then
    some (frame.set ((⟨index, inside⟩ : Fin 4).castLE (by decide)) byte)
  else none

def setLength (frame : McpFrame) (byte : Byte) : McpFrame :=
  frame.set ⟨4, by decide⟩ byte

/-- `payload[index] = byte` -/
def setPayload (frame : McpFrame) (index : ℕ) (byte : Byte) :
    Option McpFrame :=
  if inside : index < maxPayload then
    some (frame.set ((⟨index, inside⟩ : Fin maxPayload).natAdd 5) byte)
  else none

/-- `raw[index]` -/
def getRaw (frame : McpFrame) (index : ℕ) : Option Byte :=
  if inside : index < 5 + maxPayload then some (frame.raw ⟨index, inside⟩)
  else none

end McpFrame

/-- `can_frame`, whose payload has at most `CAN_MAX_DLEN` bytes. -/
structure CanFrame where
  canId : BitVec 32
  canDlc : Byte
  data : Fin 8 → Byte
  fits : canDlc.toNat ≤ 8

/-! ## Identifiers -/

/-- `mcp2515_id_to_buf` -/
def mcp2515IdToBuf (id : BitVec 64) (extended : Bool) : Fin 4 → Byte :=
  let canid : BitVec 16 := id.setWidth 16
  if extended then
    let high : BitVec 16 := (id >>> 16).setWidth 16
    ![(high >>> 5).setWidth 8,
      ((high &&& 0x03).setWidth 8 + ((high &&& 0x1c) <<< 3).setWidth 8) |||
        0x08,
      (canid >>> 8).setWidth 8,
      (canid &&& 0xff).setWidth 8]
  else
    ![(canid >>> 3).setWidth 8, ((canid &&& 0x07) <<< 5).setWidth 8, 0, 0]

/-- `mcp2515_buf_to_id` -/
def mcp2515BufToId (idField : Fin 4 → Byte) : BitVec 32 × Bool :=
  let wide (index : Fin 4) : BitVec 32 := (idField index).setWidth 32
  let id := (wide 0 <<< 3) + (wide 1 >>> 5)
  if idField 1 &&& 0x08 = 0x08 then
    let id := (id <<< 2) + (wide 1 &&& 0x03)
    let id := (id <<< 8) + wide 2
    let id := (id <<< 8) + wide 3
    (id, true)
  else (id, false)

/-! ## The controller -/

/-- The states of `ModReg` -/
inductive ModStage : Type
  | address
  | mask
  | data
  deriving DecidableEq, Repr

structure ModReg where
  state : ModStage
  address : Byte
  mask : Byte
  data : Byte
  deriving DecidableEq, Repr

/-- The states of `LoadTX` -/
inductive LoadStage : Type
  | id
  | length
  | payload
  deriving DecidableEq, Repr

structure LoadTx where
  state : LoadStage
  payloadPtr : Byte
  deriving DecidableEq, Repr

structure Can where
  state : State
  registers : Fin (mcpRxb1Sidh + 1) → Byte
  txBuf : Fin 3 → McpFrame
  rxBuf : Fin 2 → McpFrame
  status : Byte
  /-- what has been written to the socket, the latest first -/
  sent : List CanFrame
  /-- `selectedRegister` of `readRegister` -/
  readSelected : BitVec 16
  /-- `selectedRegister` of `writeRegister` -/
  writeSelected : BitVec 16
  modReg : ModReg
  loadCommand : LoadTx
  /-- `payload_ptr` of `readRxBuf` -/
  rxPtr : Byte

/-- After the constructor, which leaves the registers and the buffers as they
are in memory. -/
def Can.boot (registers : Fin (mcpRxb1Sidh + 1) → Byte)
    (txBuf : Fin 3 → McpFrame) (rxBuf : Fin 2 → McpFrame) : Can where
  state := .init
  registers := registers
  txBuf := txBuf
  rxBuf := rxBuf
  status := 0
  sent := []
  readSelected := -1
  writeSelected := -1
  modReg := ⟨.address, 0, 0, 0⟩
  loadCommand := ⟨.id, 0⟩
  rxPtr := 0

namespace Can

def command (byte : Byte) (can : Can) : Can :=
  if byte = mcpWrite then { can with state := .writeRegister }
  else if byte = mcpRead then { can with state := .readRegister }
  else if byte = mcpBitmod then { can with state := .bitmod }
  else if byte = mcpLoadTx0 then { can with state := .loadTx 0 }
  else if byte = mcpLoadTx1 then { can with state := .loadTx 1 }
  else if byte = mcpLoadTx2 then { can with state := .loadTx 2 }
  else if byte = mcpRtsTx0 then { can with state := .sendTx 0 }
  else if byte = mcpRtsTx1 then { can with state := .sendTx 1 }
  else if byte = mcpRtsTx2 then { can with state := .sendTx 2 }
  else if byte = mcpRtsAll then { can with state := .sendAll }
  else if byte = mcpReadRx0 then { can with state := .readRx 0 }
  else if byte = mcpReadRx1 then { can with state := .readRx 1 }
  else if byte = mcpReadStatus then { can with state := .getStatus }
  else if byte = mcpRxStatus then can
  else if byte = mcpReset then { can with state := .init }
  else can

/-- `registers[index]` -/
def getRegister (can : Can) (index : ℕ) : Option Byte :=
  if inside : index < mcpRxb1Sidh + 1 then some (can.registers ⟨index, inside⟩)
  else none

/-- `registers[index] = byte` -/
def setRegister (can : Can) (index : ℕ) (byte : Byte) : Option Can :=
  if inside : index < mcpRxb1Sidh + 1 then
    some { can with
      registers := Function.update can.registers ⟨index, inside⟩ byte }
  else none

def readRegister (byte : Byte) (can : Can) : Option (Byte × Can) :=
  if can.readSelected.toInt < 0 then
    some (0, { can with readSelected := byte.setWidth 16 })
  else if byte ≠ 0 then
    some (0, command byte { can with readSelected := -1 })
  else if (mcpRxb1Sidh : ℤ) < can.readSelected.toInt then
    some (0, { can with readSelected := can.readSelected + 1 })
  else do
    let value ← can.getRegister can.readSelected.toNat
    some (value, { can with readSelected := can.readSelected + 1 })

def writeRegister (byte : Byte) (can : Can) : Option (Byte × Can) :=
  if can.writeSelected.toInt < 0 then
    some (0, { can with writeSelected := byte.setWidth 16 })
  else if (mcpRxb1Sidh : ℤ) < can.writeSelected.toInt then some (0, can)
  else do
    let written ← can.setRegister can.writeSelected.toNat byte
    some (0, { written with writeSelected := -1, state := .init })

def modifyRegister (byte : Byte) (can : Can) : Option (Byte × Can) :=
  match can.modReg.state with
  | .address => some (0, { can with
      modReg := { can.modReg with address := byte, state := .mask } })
  | .mask => some (0, { can with
      modReg := { can.modReg with mask := byte, state := .data } })
  | .data => do
      let value ← can.getRegister can.modReg.address.toNat
      let modified ← can.setRegister can.modReg.address.toNat
        ((value &&& ~~~ can.modReg.mask) ||| byte)
      some (0, { modified with
        modReg := { can.modReg with data := byte, state := .address }
        state := .init })

def setTxBuf (can : Can) (no : Fin 3) (frame : McpFrame) : Can :=
  { can with txBuf := Function.update can.txBuf no frame }

def loadTxBuf (no : Fin 3) (byte : Byte) (can : Can) :
    Option (Byte × Can) :=
  let ptr := can.loadCommand.payloadPtr
  match can.loadCommand.state with
  | .id => do
      let frame ← (can.txBuf no).setId ptr.toNat byte
      let loaded := can.setTxBuf no frame
      if ptr + 1 = 4 then some (0, { loaded with loadCommand := ⟨.length, 0⟩ })
      else some (0, { loaded with loadCommand := ⟨.id, ptr + 1⟩ })
  | .length =>
      some (0, { can.setTxBuf no ((can.txBuf no).setLength byte) with
        loadCommand := ⟨.payload, ptr⟩ })
  | .payload => do
      let frame ← (can.txBuf no).setPayload ptr.toNat byte
      let loaded := can.setTxBuf no frame
      if ptr + 1 = frame.length then
        some (0, { loaded with loadCommand := ⟨.id, 0⟩, state := .init })
      else some (0, { loaded with loadCommand := ⟨.payload, ptr + 1⟩ })

/-- The frame that `sendTxBuf` writes to the socket; a copy of more than the
data of a frame has no result. -/
def frameToSend (frame : McpFrame) : Option CanFrame :=
  if fits : frame.length.toNat ≤ 8 then
    some
      { canId := (mcp2515BufToId frame.id).1
        canDlc := frame.length
        data := fun index =>
          if index.val < frame.length.toNat then
            frame.payload (index.castLE (by decide))
          else 0
        fits := fits }
  else none

def sendTxBuf (no : ℕ) (_byte : Byte) (can : Can) : Option (Byte × Can) :=
  -- The special case of all buffers; it is not the number that they have.
  let no := if no = 4 then 0 else no
  if inside : no < 3 then do
    let frame ← frameToSend (can.txBuf ⟨no, inside⟩)
    let sent := { can with sent := frame :: can.sent }
    let cleared ← sent.setRegister mcpTxb0Ctrl 0
    some (0, { cleared with state := .readRegister })
  else none

def readRxBuf (no : Fin 2) (_byte : Byte) (can : Can) :
    Option (Byte × Can) := do
  let ret ← (can.rxBuf no).getRaw can.rxPtr.toNat
  let ptr := can.rxPtr + 1
  if (can.rxBuf no).length.toNat + 4 < ptr.toNat then
    some (ret, { can with
      rxPtr := 0
      state := .init
      status := can.status &&& ~~~ BitVec.twoPow 8 no })
  else some (ret, { can with rxPtr := ptr })

def write (byte : Byte) (can : Can) : Option (Byte × Can) :=
  match can.state with
  | .init => some (0, can.command byte)
  | .readRegister => can.readRegister byte
  | .writeRegister => can.writeRegister byte
  | .bitmod => can.modifyRegister byte
  | .loadTx no => can.loadTxBuf no byte
  | .sendTx no => can.sendTxBuf no byte
  | .sendAll => can.sendTxBuf 3 byte
  | .readRx no => can.readRxBuf no byte
  | .getStatus => some (can.status, { can with state := .init })

/-- What an empty receive buffer holds of a frame. -/
def received (frame : CanFrame) : McpFrame where
  raw index :=
    if inId : index.val < 4 then
      mcp2515IdToBuf (frame.canId.setWidth 64) false ⟨index, inId⟩
    else if index.val = 4 then frame.canDlc
    else if inPayload : index.val - 5 < 8 then
      if index.val - 5 < frame.canDlc.toNat then
        frame.data ⟨index.val - 5, inPayload⟩
      else 0
    else 0

/-- `enqueueIncomingCanFrame` -/
def enqueueIncomingCanFrame (frame : CanFrame) (can : Can) : Can :=
  let fill (no : Fin 2) : Can :=
    { can with
      rxBuf := Function.update can.rxBuf no (received frame)
      status := can.status ||| BitVec.twoPow 8 no }
  if !can.status.getLsbD 0 then fill 0
  else if !can.status.getLsbD 1 then fill 1
  else can

end Can

/-! ## Events -/

inductive Event : Type
  | byte (byte : Byte)
  | frame (frame : CanFrame)

def Can.step (can : Can) : Event → Option Can
  | .byte byte => (can.write byte).map Prod.snd
  | .frame frame => some (can.enqueueIncomingCanFrame frame)

end Mcp2515

end RiscvVp
