import Mathlib

/-!
# Packets of the remote protocol

`libgdb`: packets as the first stage delivers them, their checksum, run-length
encoding and escapes (`util.c`), and the commands of the second stage
(`parser2.h`).

A C string is the list of its bytes before the terminator.  An `xassert` that
fails ends the simulator.
-/

namespace RiscvVp

namespace Gdb

abbrev Byte : Type := BitVec 8

theorem lawfulBEq_byte : LawfulBEq Byte :=
  inferInstanceAs (LawfulBEq (BitVec 8))

/-- A character constant. -/
def ascii (character : Char) : Byte :=
  BitVec.ofNat 8 character.toNat

/-- A string constant. -/
def text (string : String) : List Byte :=
  string.toList.map ascii

/-- `gdb_kind_t` -/
inductive Kind : Type
  | notify
  | packet
  | nack
  | ack
  deriving DecidableEq, Repr

/-- `gdb_packet_t`.  Acknowledgments have no data. -/
structure Packet : Type where
  kind : Kind
  data : Option (List Byte)
  csum : List Byte
  deriving DecidableEq, Repr

/-- Why there is no command: the value of `errno`, an assertion, or a sum that
overflows. -/
inductive Fault : Type
  | einval
  | eilseq
  | ebadmsg
  | assertion
  | overflow
  deriving DecidableEq, Repr

/-- `xassert(condition)` -/
def xassert (condition : Bool) : Except Fault Unit :=
  if condition then .ok () else .error .assertion

/-- The range of an `int`. -/
def FitsInt (sum : ℤ) : Prop :=
  -2 ^ 31 ≤ sum ∧ sum < 2 ^ 31

instance (sum : ℤ) : Decidable (FitsInt sum) :=
  inferInstanceAs (Decidable (_ ∧ _))

/-- `csum += (int)data[i]`: characters are signed, and a sum that overflows has
no result. -/
def addChar (csum : ℤ) (byte : Byte) : Option ℤ :=
  if FitsInt (csum + byte.toInt) then some (csum + byte.toInt) else none

/-- `calc_csum`; the remainder has the sign of the sum. -/
def calcCsum (data : List Byte) : Option ℤ := do
  let csum ← data.foldlM addChar 0
  return csum.tmod 256

def hexDigitOf (value : ℕ) : Byte :=
  if value < 10 then ascii '0' + BitVec.ofNat 8 value
  else ascii 'a' + BitVec.ofNat 8 (value - 10)

/-- `"%.2x"` of a number below 256. -/
def formatCsum (csum : ℕ) : List Byte :=
  [hexDigitOf (csum / 16), hexDigitOf (csum % 16)]

/-- `gdb_is_valid`.  A negative checksum prints as eight digits. -/
def gdbIsValid (packet : Packet) : Except Fault Bool := do
  match packet.data with
  | none => return true
  | some data =>
      match calcCsum data with
      | none => .error .overflow
      | some expcsum =>
          xassert (0 ≤ expcsum)
          return packet.csum == formatCsum expcsum.toNat

/-- The state of the loop of `gdb_decode_runlen`: the previous character of the
input, the character to repeat, and the output. -/
structure Runlen : Type where
  previous : Option Byte
  runlen : Option Byte
  output : List Byte
  deriving DecidableEq, Repr

/-- One round of `gdb_decode_runlen`.  The character to repeat is kept in an
`int` in which -1 stands for none, so that `0xff` is taken for none. -/
def Runlen.next (state : Runlen) (byte : Byte) : Except Fault Runlen := do
  if byte = ascii '*' then
    match state.previous with
    | none => .error .ebadmsg
    | some previous =>
        return { state with
          previous := some byte
          runlen := if previous = 0xff then none else some previous }
  else
    match state.runlen with
    | none => do
        xassert (0 ≤ byte.toInt)
        return ⟨some byte, none, state.output ++ [byte]⟩
    | some runlen => do
        let rcount := byte.toInt - 29
        if rcount ≤ 0 then .error .ebadmsg
        else
          xassert (0 ≤ runlen.toInt)
          return ⟨some byte, none,
            state.output ++ List.replicate rcount.toNat runlen⟩

/-- `gdb_decode_runlen` -/
def gdbDecodeRunlen (data : List Byte) : Except Fault (List Byte) := do
  let final ← data.foldlM Runlen.next ⟨none, none, []⟩
  return final.output

/-- `GDB_ESCAPE_CHAR` -/
def escapeChar : Byte := 0x7d

/-- `GDB_ESCAPE_BYTE` -/
def escapeByte : Byte := 0x20

/-- The loop of `gdb_unescape`, on `esc`. -/
def unescapeFrom : Bool → List Byte → List Byte
  | _, [] => []
  | esc, byte :: rest =>
      if byte = escapeChar then unescapeFrom true rest
      else (if esc then byte ^^^ escapeByte else byte) :: unescapeFrom false rest

/-- `gdb_unescape`.  A byte that comes out as 0 ends the string. -/
def gdbUnescape (data : List Byte) : List Byte :=
  (unescapeFrom false data).takeWhile fun byte => byte != 0

/-! ## Commands -/

/-- `gdb_thread_t` -/
structure Thread : Type where
  pid : ℤ
  tid : ℤ
  deriving DecidableEq, Repr

def threadUnset : ℤ := -2

def threadAny : ℤ := 0

def threadAll : ℤ := -1

/-- `gdb_ztype_t` -/
inductive ZType : Type
  | soft
  | hard
  | watchw
  | watchr
  | watcha
  deriving DecidableEq, Repr

def ZType.ofInt : ℤ → Option ZType
  | 0 => some .soft
  | 1 => some .hard
  | 2 => some .watchw
  | 3 => some .watchr
  | 4 => some .watcha
  | _ => none

/-- `gdb_breakpoint_t` -/
structure Breakpoint : Type where
  type : ZType
  address : BitVec 64
  kind : BitVec 64
  deriving DecidableEq, Repr

/-- `gdb_memory_t` -/
structure Memory : Type where
  addr : BitVec 64
  length : BitVec 64
  deriving DecidableEq, Repr

/-- `gdb_memory_write_t` -/
structure MemoryWrite : Type where
  location : Memory
  data : List Byte
  deriving DecidableEq, Repr

/-- `gdb_cmd_h_t` -/
structure CmdH : Type where
  op : Byte
  id : Thread
  deriving DecidableEq, Repr

/-- `gdb_vcont_t`, an element of the list. -/
structure Vcont : Type where
  action : Byte
  sig : ℤ
  thread : Thread
  deriving DecidableEq, Repr

/-- `gdb_argument_t` -/
inductive Argument : Type
  | none
  | vcont
  | h
  | int
  | memory
  | memoryw
  | break
  | thread
  deriving DecidableEq, Repr

/-- The union `v`: the member that was set, if any was. -/
inductive Value : Type
  | unset
  | vval (actions : List Vcont)
  | hcmd (command : CmdH)
  | ival (value : ℤ)
  | mem (memory : Memory)
  | memw (write : MemoryWrite)
  | bval (breakpoint : Breakpoint)
  | tval (thread : Thread)
  deriving DecidableEq, Repr

/-- `gdb_command_t` -/
structure Command : Type where
  name : List Byte
  type : Argument
  v : Value
  deriving DecidableEq, Repr

end Gdb

end RiscvVp
