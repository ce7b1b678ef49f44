import RiscvVp.Framing.Link
import RiscvVp.Gpio.Messages

/-!
# The connection of client and server

`GpioClient` and `GpioServer` with the sockets between them.  Each side writes
whole structures and reads each with one call, which returns a part of what is
outstanding.  The sockets can be opened; once a side has closed one of them, the
connection is not followed any further.
-/

namespace RiscvVp

namespace Gpio

open Framing Keyed
open Hifive (Tristate)

/-- What the two sides are run with. -/
structure Host (κ : Type) where
  /-- the port of the data channel -/
  port : BitVec 16
  unprivileged : 1024 ≤ port.toNat
  /-- `onchange_fun`, or the assignment in its place -/
  onchange : Fin 64 → Tristate → Bank → Bank
  /-- what a callback answers to an SPI command -/
  spi : κ → Byte → Byte

/-- The answer that the client reads. -/
inductive Awaiting (κ : Type) : Type
  | nothing
  | state
  /-- `addIOFchannel`, with the lock of the channels -/
  | channel (desc : Description κ)

structure Connection (κ : Type) where
  /-- the server's `state` -/
  state : Bank
  activeIofChannels : Table PinNumber ChannelInfo
  /-- `awaitConnection`, with the entry that is made after it -/
  accepting : Option (PinNumber × ChannelInfo)
  /-- the server's `data_channel_fd` is a socket -/
  serverData : Bool
  /-- `pushSPI` reads -/
  awaitsResponse : Bool
  /-- the client's `state` -/
  copy : Bank
  awaiting : Awaiting κ
  dataChannels : Table ChannelId (Description κ)
  activeIofs : Table PinNumber ChannelId
  /-- the client's `data_channel` is a socket -/
  clientData : Bool
  requests : Link Byte Request
  replies : Link Byte Reply
  updates : Link Byte Update
  responses : Link Byte Byte
  /-- a side has closed a socket -/
  ended : Bool

namespace Connection

variable {κ : Type}

/-- Client and server are connected, and have not said anything. -/
def boot : Connection κ where
  state _ := 0
  activeIofChannels := ∅
  accepting := none
  serverData := false
  awaitsResponse := false
  copy _ := 0
  awaiting := .nothing
  dataChannels := ∅
  activeIofs := ∅
  clientData := false
  requests := .idle
  replies := .idle
  updates := .idle
  responses := .idle
  ended := false

/-- A read that does not return the structure. -/
def close (connection : Connection κ) : Connection κ :=
  { connection with ended := true }

/-! ## The client -/

def ask (connection : Connection κ) (request : Request)
    (awaiting : Awaiting κ) : Connection κ :=
  { connection with
    requests := connection.requests.send Request.encode request
    awaiting := awaiting }

/-- `closeIOFunction` -/
def closeIofunction (connection : Connection κ) (pin : PinNumber) :
    Connection κ :=
  match connection.activeIofs.lookup pin with
  | none => connection
  | some id =>
      { connection.ask (.endIof pin) .nothing with
        dataChannels := connection.dataChannels.erase id
        activeIofs := connection.activeIofs.erase pin }

/-- The rest of `addIOFchannel`, with the answer. -/
def addIofChannel (connection : Connection κ) (desc : Description κ)
    (port : BitVec 16) (id : ChannelId) : Connection κ :=
  if port.toNat < 1024 then connection
  else
    { connection with
      clientData := true
      dataChannels := emplace connection.dataChannels id desc }

/-- `readStruct` of `update` and of `requestIOFchannel`. -/
def readReply (connection : Connection κ) (count : ℕ) :
    Option (Connection κ) :=
  let bytes := connection.replies.wire.take count
  match connection.awaiting with
  | .nothing => none
  | .state =>
      if connection.replies.Returns stateSize count then
        if count = stateSize then
          let pins := Reply.decodeState bytes
          some { connection with
            copy := pins
            awaiting := .nothing
            replies := connection.replies.receive count (.state pins) }
        else some connection.close
      else none
  | .channel desc =>
      if connection.replies.Returns responseSize count then
        if count = responseSize then
          let (port, id) := Reply.decodeChannel bytes
          some (addIofChannel
            { connection with
              awaiting := .nothing
              replies := connection.replies.receive count (.channel port id) }
            desc port id)
        else some connection.close
      else none

/-- The body of the loop of `handleDataChannel`. -/
def handleUpdate (host : Host κ) (connection : Connection κ)
    (update : Update) : Connection κ :=
  match connection.dataChannels.lookup update.id with
  | none => connection.close
  | some desc =>
      match desc.iof with
      | .spi =>
          { connection with
            responses := connection.responses.send encodeResponse
              (host.spi desc.onchange update.payload) }
      | .bitsync =>
          { connection with
            copy := fun pin =>
              if pin.val = desc.pin.toNat then update.payload
              else connection.copy pin }
      | _ => connection

/-- The client is in `addIOFchannel`. -/
def locked (connection : Connection κ) : Bool :=
  match connection.awaiting with
  | .channel _ => true
  | _ => false

/-- `readStruct` of `handleDataChannel`, and what is done with the update when
the lock is free. -/
def readUpdate (host : Host κ) (connection : Connection κ) (count : ℕ) :
    Option (Connection κ) :=
  if connection.clientData ∧ connection.locked = false ∧
      connection.updates.Returns updateSize count then
    if count = updateSize then
      let update := Update.decode (connection.updates.wire.take count)
      some (handleUpdate host
        { connection with
          updates := connection.updates.receive count update }
        update)
    else some connection.close
  else none

/-! ## The server -/

def answer (connection : Connection κ) (reply : Reply) : Connection κ :=
  { connection with
    replies := connection.replies.send Reply.encode reply }

/-- The switch of `handleConnection`. -/
def handle (host : Host κ) (connection : Connection κ) :
    Request → Connection κ
  | .getBank => connection.answer (.state connection.state)
  | .setBit pin val =>
      if isIof (connection.state pin) then connection
      else { connection with state := host.onchange pin val connection.state }
  | .reqIof pin iof =>
      let info : ChannelInfo :=
        ⟨findNewId connection.activeIofChannels, iof⟩
      let answered := connection.answer (.channel host.port info.id)
      if connection.serverData then
        { answered with
          activeIofChannels :=
            emplace connection.activeIofChannels pin info }
      else { answered with accepting := some (pin, info) }
  | .endIof pin =>
      if pin ∈ connection.activeIofChannels then
        { connection with
          activeIofChannels := connection.activeIofChannels.erase pin }
      else connection.close

/-- `readStruct` of `handleConnection`, and the request. -/
def readRequest (host : Host κ) (connection : Connection κ) (count : ℕ) :
    Option (Connection κ) :=
  if connection.accepting = none ∧
      connection.requests.Returns requestSize count then
    if count = requestSize then
      match Request.decode (connection.requests.wire.take count) with
      | none => some connection.close
      | some request =>
          some (handle host
            { connection with
              requests := connection.requests.receive count request }
            request)
    else some connection.close
  else none

/-- `awaitConnection` returns. -/
def accept (connection : Connection κ) : Option (Connection κ) :=
  match connection.accepting with
  | none => none
  | some (pin, info) =>
      if connection.clientData then
        some { connection with
          accepting := none
          serverData := true
          activeIofChannels :=
            emplace connection.activeIofChannels pin info }
      else none

/-- `pushPin` and `pushSPI` for channels of some functions. -/
def push (connection : Connection κ) (functions : List IOFunction)
    (pin : PinNumber) (payload : Byte) : Connection κ :=
  match connection.activeIofChannels.lookup pin with
  | none => connection
  | some info =>
      if info.requestedIof ∈ functions then
        if connection.serverData then
          { connection with
            updates := connection.updates.send Update.encode
              ⟨info.id, payload⟩
            awaitsResponse := decide (info.requestedIof = .spi) }
        else connection.close
      else connection

/-- `readStruct` of `pushSPI` -/
def readResponse (connection : Connection κ) (count : ℕ) :
    Option (Connection κ) :=
  if connection.awaitsResponse ∧ connection.responses.Returns 1 count then
    some { connection with
      awaitsResponse := false
      responses := connection.responses.receive count
        ((connection.responses.wire.take count).getD 0 0) }
  else none

/-! ## Runs -/

inductive Event (κ : Type) : Type
  | update
  | setBit (pin : PinNumber) (val : Tristate)
  /-- `registerSPIOnChange` and `registerPINOnChange` -/
  | register (desc : Description κ)
  | closeIofunction (pin : PinNumber)
  | readReply (count : ℕ)
  | readUpdate (count : ℕ)
  | readRequest (count : ℕ)
  | accept
  /-- the simulation changes the server's `state` -/
  | simulate (state : Bank)
  | pushPin (pin : PinNumber) (state : Tristate)
  | pushSpi (pin : PinNumber) (byte : Byte)
  | readResponse (count : ℕ)

/-- A call of the client, which returns before the next. -/
def call (connection : Connection κ) (called : Connection κ) :
    Option (Connection κ) :=
  match connection.awaiting with
  | .nothing => some called
  | _ => none

def step (host : Host κ) (connection : Connection κ) (event : Event κ) :
    Option (Connection κ) :=
  if connection.ended then none
  else
    match event with
    | .update => connection.call (connection.ask .getBank .state)
    | .setBit pin val =>
        connection.call (connection.ask
          (.setBit ⟨pin.toNat % 64, Nat.mod_lt _ (by decide)⟩ val) .nothing)
    | .register desc =>
        connection.call
          (connection.ask (.reqIof desc.pin desc.iof) (.channel desc))
    | .closeIofunction pin => connection.call (connection.closeIofunction pin)
    | .readReply count => connection.readReply count
    | .readUpdate count => connection.readUpdate host count
    | .readRequest count => connection.readRequest host count
    | .accept => connection.accept
    | .simulate state => some { connection with state := state }
    | .pushPin pin state =>
        if connection.awaitsResponse then none
        else some (connection.push [.bitsync] pin (tristateByte state))
    | .pushSpi pin byte =>
        if connection.awaitsResponse then none
        else some (connection.push [.spi, .spiNoResponse] pin byte)
    | .readResponse count => connection.readResponse count

/-- The connection takes a step. -/
def Steps (host : Host κ) (connection : Connection κ) (event : Event κ)
    (later : Connection κ) : Prop :=
  connection.step host event = some later

/-- Each side has processed exactly what the other has sent, in order, but for
what is outstanding; and no socket is closed. -/
structure Intact (connection : Connection κ) : Prop where
  running : connection.ended = false
  requests : connection.requests.Intact Request.encode
  replies : connection.replies.Intact Reply.encode
  updates : connection.updates.Intact Update.encode
  responses : connection.responses.Intact encodeResponse

/-- The read returns the whole structure. -/
def Whole (connection : Connection κ) : Event κ → Prop
  | .readReply count =>
      match connection.awaiting with
      | .nothing => True
      | .state => count = stateSize
      | .channel _ => count = responseSize
  | .readUpdate count => count = updateSize
  | .readRequest count => count = requestSize
  | _ => True

end Connection

end Gpio

end RiscvVp
