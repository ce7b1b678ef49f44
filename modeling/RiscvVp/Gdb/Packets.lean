import Mathlib
import RiscvVp.Gdb.Protocol
import RiscvVp.Parsing.Combinators

/-!
# Packets on the wire

`response.c` and `parser1.c`: how a packet is written, and the first stage that
reads it.
-/

namespace RiscvVp

namespace Gdb

attribute [local instance] lawfulBEq_byte

open Parsing Parser

/-! ## Writing -/

/-- `kind_to_char` -/
def kindToChar : Kind → Byte
  | .notify => ascii '#'
  | .packet => ascii '$'
  | .nack => ascii '-'
  | .ack => ascii '+'

/-- `"%.2x"` of an `int`.  A negative one has eight digits. -/
def formatInt (csum : ℤ) : List Byte :=
  if csum < 0 then
    let word := (BitVec.ofInt 32 csum).toNat
    [7, 6, 5, 4, 3, 2, 1, 0].map fun digit =>
      hexDigitOf (word / 16 ^ digit % 16)
  else formatCsum csum.toNat

/-- `GDB_CSUM_LEN` -/
def csumLen : ℕ := 2

/-- `gdb_serialize`; a failed assertion, an `errx` and a sum that overflows have
no result. -/
def gdbSerialize (kind : Kind) (data : Option (List Byte)) :
    Option (List Byte) :=
  match kind, data with
  | .nack, none | .ack, none => some [kindToChar kind]
  | .nack, some _ | .ack, some _ => none
  | _, none => none
  | _, some data => do
      let csum ← calcCsum data
      let pktlen := data.length + csumLen + 3
      let serialized := kindToChar kind :: data ++ ascii '#' :: formatInt csum
      if pktlen ≤ serialized.length then none else some serialized

/-! ## Reading -/

/-- `gdb_csum` -/
def gdbCsum : Parser Byte (List Byte) := do
  let start ← token (ascii '#')
  let high ← any
  let low ← any
  return [start, high, low]

/-- `gdbf_packet` -/
def gdbfPacket (start : Byte) (data csum : List Byte) : Parser Byte Packet :=
  if start = ascii '%' then
    return ⟨.notify, some data, (csum.drop 1).take csumLen⟩
  else if start = ascii '$' then
    return ⟨.packet, some data, (csum.drop 1).take csumLen⟩
  else abort

/-- `gdbf_acknowledge` -/
def gdbfAcknowledge (char : Byte) : Parser Byte Packet :=
  if char = ascii '+' then return ⟨.ack, none, [0, 0]⟩
  else if char = ascii '-' then return ⟨.nack, none, [0, 0]⟩
  else abort

/-- `mpc_noneof` -/
def noneOf (excluded : List Byte) : Parser Byte Byte :=
  satisfy fun byte => decide (byte ∉ excluded)

def gdbPacket : Parser Byte Packet := do
  let start ← token (ascii '$')
  let data ← many (noneOf (text "#$"))
  let csum ← gdbCsum
  gdbfPacket start data csum

def gdbNotification : Parser Byte Packet := do
  let start ← token (ascii '%')
  let data ← many (noneOf (text "#$%"))
  let csum ← gdbCsum
  gdbfPacket start data csum

def gdbAcknowledge : Parser Byte Packet := do
  gdbfAcknowledge (← oneOf (text "+-"))

def gdbParseStage1 : Parser Byte Packet :=
  firstOf [gdbAcknowledge, gdbPacket, gdbNotification]

end Gdb

end RiscvVp
