import RiscvVp.Gpio.Channels
import RiscvVp.Gpio.Registers

/-!
# The structures on the sockets

`gpiocommon.hpp`: what client and server write, as the host that both run on
lays it out.  Padding is written as 0, and nobody reads it.
-/

namespace RiscvVp

namespace Gpio

open Hifive (Tristate)

abbrev Byte : Type := BitVec 8

/-- `State`, with the pin states as they are stored. -/
abbrev Bank : Type := Fin 64 → Byte

/-- `isIOF` -/
def isIof (pinstate : Byte) : Bool :=
  4 ≤ pinstate

def tristateByte : Tristate → Byte
  | .unset => 0
  | .low => 1
  | .high => 2
  | .invalid => 3

def IOFunction.byte : IOFunction → Byte
  | .spi => 0
  | .spiNoResponse => 1
  | .i2c => 2
  | .pwm => 3
  | .uart => 4
  | .bitsync => 5

/-- The requests that the client makes; a pin has six bits in the first two of
them that have one. -/
inductive Request : Type
  | getBank
  | setBit (pin : Fin 64) (val : Tristate)
  | reqIof (pin : PinNumber) (iof : IOFunction)
  | endIof (pin : PinNumber)
  deriving DecidableEq, Repr

/-- The answers of the server. -/
inductive Reply : Type
  | state (pins : Bank)
  /-- `Req_IOF_Response` -/
  | channel (port : BitVec 16) (id : ChannelId)
  deriving DecidableEq

/-- `IOF_Update`, with the byte that its union takes. -/
structure Update where
  id : ChannelId
  payload : Byte
  deriving DecidableEq, Repr

/-! ## Sizes -/

/-- `sizeof(Request)` -/
def requestSize : ℕ := 3

/-- `sizeof(State)` -/
def stateSize : ℕ := 64

/-- `sizeof(Req_IOF_Response)` -/
def responseSize : ℕ := 4

/-- `sizeof(IOF_Update)` -/
def updateSize : ℕ := 2

/-! ## Layouts -/

namespace Request

def encode : Request → List Byte
  | .getBank => [1, 0, 0]
  | .setBit pin val =>
      [2, BitVec.ofNat 8 (pin + 64 * (tristateByte val).toNat), 0]
  | .reqIof pin iof => [3, pin, iof.byte]
  | .endIof pin => [4, pin, 0]

/-- A function that has no name is taken for no request. -/
def decode : List Byte → Option Request
  | [1, _, _] => some .getBank
  | [2, bits, _] =>
      some (.setBit ⟨bits.toNat % 64, Nat.mod_lt _ (by decide)⟩
        (match bits.toNat / 64 with
          | 0 => .unset
          | 1 => .low
          | 2 => .high
          | _ => .invalid))
  | [3, pin, 0] => some (.reqIof pin .spi)
  | [3, pin, 1] => some (.reqIof pin .spiNoResponse)
  | [3, pin, 2] => some (.reqIof pin .i2c)
  | [3, pin, 3] => some (.reqIof pin .pwm)
  | [3, pin, 4] => some (.reqIof pin .uart)
  | [3, pin, 5] => some (.reqIof pin .bitsync)
  | [4, pin, _] => some (.endIof pin)
  | _ => none

theorem length_encode (request : Request) :
    request.encode.length = requestSize := by
  cases request <;> rfl

theorem decode_encode (request : Request) :
    decode request.encode = some request := by
  cases request with
  | getBank => rfl
  | setBit pin val =>
      cases val <;>
      · revert pin
        decide
  | reqIof pin iof => cases iof <;> rfl
  | endIof pin => rfl

end Request

namespace Reply

def encode : Reply → List Byte
  | .state pins => List.ofFn pins
  | .channel port id =>
      [port.extractLsb' 0 8, port.extractLsb' 8 8, id, 0]

/-- The pins that are read from a `State`. -/
def decodeState (bytes : List Byte) : Bank :=
  fun pin => bytes.getD pin 0

/-- The port and the identifier that are read from a `Req_IOF_Response`. -/
def decodeChannel (bytes : List Byte) : BitVec 16 × ChannelId :=
  (bytes.getD 1 0 ++ bytes.getD 0 0, bytes.getD 2 0)

theorem decodeState_encode (pins : Bank) :
    decodeState (encode (.state pins)) = pins := by
  funext pin
  rw [decodeState, encode, List.getD_eq_getElem?_getD, List.getElem?_ofFn,
    dif_pos pin.isLt]
  rfl

theorem decodeChannel_encode (port : BitVec 16) (id : ChannelId) :
    decodeChannel (encode (.channel port id)) = (port, id) := by
  have halves : port.extractLsb' 8 8 ++ port.extractLsb' 0 8 = port := by
    ext bit bound
    simp only [BitVec.getElem_append, BitVec.getElem_extractLsb']
    split
    case isTrue low =>
      rw [Nat.zero_add]
      exact BitVec.getLsbD_eq_getElem bound
    case isFalse high =>
      have place : 8 + (bit - 8) = bit := by omega
      rw [place]
      exact BitVec.getLsbD_eq_getElem bound
  exact Prod.ext halves rfl

end Reply

namespace Update

def encode (update : Update) : List Byte :=
  [update.id, update.payload]

def decode (bytes : List Byte) : Update :=
  ⟨bytes.getD 0 0, bytes.getD 1 0⟩

theorem length_encode (update : Update) :
    update.encode.length = updateSize :=
  rfl

theorem decode_encode (update : Update) : decode update.encode = update :=
  rfl

end Update

/-- `SPI_Response` is a byte. -/
def encodeResponse (response : Byte) : List Byte :=
  [response]

end Gpio

end RiscvVp
