import Mathlib
import RiscvVp.Gdb.Protocol
import RiscvVp.Parsing.Combinators

/-!
# The command grammar

`parser2.c`: seven alternatives for commands with an argument, and a catch-all
that takes any payload and cuts its name at the first colon.
-/

namespace RiscvVp

namespace Gdb

attribute [local instance] lawfulBEq_byte

open Parsing Parser

/-! ## Numbers -/

def hexDigits : List Byte :=
  text "0123456789ABCDEFabcdef"

def isHexDigit (byte : Byte) : Bool :=
  decide (byte ∈ hexDigits)

def digitValue (byte : Byte) : ℕ :=
  if byte.toNat < 0x3a then byte.toNat - 0x30
  else if byte.toNat < 0x47 then byte.toNat - 0x37
  else byte.toNat - 0x57

def digitsValue (base : ℕ) (digits : List Byte) : ℕ :=
  digits.foldl (fun value digit => base * value + digitValue digit) 0

/-- `strtol`, stored into an `int`.  It saturates at `LONG_MAX`. -/
def strtol (base : ℕ) (digits : List Byte) : ℤ :=
  (BitVec.ofNat 32 (min (digitsValue base digits) (2 ^ 63 - 1))).toInt

/-- `sscanf` with `"%lx"` or `"%zx"`, which saturates. -/
def sscanfHex (digits : List Byte) : BitVec 64 :=
  BitVec.ofNat 64 (min (digitsValue 16 digits) (2 ^ 64 - 1))

/-- `mpc_hexdigits` -/
def mpcHexdigits : Parser Byte (List Byte) :=
  many1 (satisfy isHexDigit)

/-- `mpc_hex` -/
def mpcHex : Parser Byte ℤ := do
  let digits ← mpcHexdigits
  return strtol 16 digits

def gdbAddress : Parser Byte (BitVec 64) := do
  let digits ← mpcHexdigits
  return sscanfHex digits

def gdbUhex : Parser Byte (BitVec 64) := do
  let digits ← mpcHexdigits
  return sscanfHex digits

/-! ## Arguments -/

def gdbMemory : Parser Byte Memory := do
  let addr ← gdbAddress
  let _ ← token (ascii ',')
  let length ← gdbUhex
  return ⟨addr, length⟩

/-- `mpc_apply(mpc_string("-1"), gdbf_negative)` -/
def gdbNegative : Parser Byte ℤ := do
  let _ ← literal (text "-1")
  return -1

def gdbHexid : Parser Byte ℤ :=
  firstOf [mpcHex, gdbNegative]

/-- The process id of a thread id. -/
def gdbPid : Parser Byte ℤ := do
  let _ ← token (ascii 'p')
  let pid ← gdbHexid
  let _ ← token (ascii '.')
  return pid

def gdbThreadId : Parser Byte Thread := do
  let pid ← maybe gdbPid
  let tid ← gdbHexid
  return ⟨pid.getD threadUnset, tid⟩

/-- `gdbf_vcont_action`, with its assertion on the length of the action. -/
def gdbfVcontAction (actstr : List Byte) (thread : Option Thread) :
    Parser Byte Vcont :=
  let action := actstr.headD 0
  let thread := thread.getD ⟨threadUnset, threadAll⟩
  if actstr.length = 1 then return ⟨action, -1, thread⟩
  else if actstr.length = 3 then return ⟨action, strtol 16 actstr.tail, thread⟩
  else abort

def vcontAction : Parser Byte Vcont := do
  let actstr ← firstOf [
    do return [← oneOf (text "cst")],
    do return (← oneOf (text "CS")) :: (← mpcHexdigits)]
  let thread ← maybe (do
    let _ ← token (ascii ':')
    gdbThreadId)
  gdbfVcontAction actstr thread

/-! ## Packets -/

/-- `gdb_new_cmd` and the setting of the union that goes with it. -/
def gdbNewCmd (name : List Byte) : Value → Command
  | .unset => ⟨name, .none, .unset⟩
  | .vval actions => ⟨name, .vcont, .vval actions⟩
  | .hcmd command => ⟨name, .h, .hcmd command⟩
  | .ival value => ⟨name, .int, .ival value⟩
  | .mem memory => ⟨name, .memory, .mem memory⟩
  | .memw write => ⟨name, .memoryw, .memw write⟩
  | .bval breakpoint => ⟨name, .break, .bval breakpoint⟩
  | .tval thread => ⟨name, .thread, .tval thread⟩

def gdbPacketH : Parser Byte Command := do
  let name ← token (ascii 'H')
  let op ← any
  let id ← gdbThreadId
  return gdbNewCmd [name] (.hcmd ⟨op, id⟩)

def gdbPacketP : Parser Byte Command := do
  let name ← token (ascii 'p')
  let value ← mpcHex
  return gdbNewCmd [name] (.ival value)

def gdbPacketVcont : Parser Byte Command := do
  let name ← literal (text "vCont")
  let actions ← many1 (do
    let _ ← token (ascii ';')
    vcontAction)
  return gdbNewCmd name (.vval actions)

def gdbPacketm : Parser Byte Command := do
  let name ← token (ascii 'm')
  let memory ← gdbMemory
  return gdbNewCmd [name] (.mem memory)

def gdbPacketM : Parser Byte Command := do
  let name ← token (ascii 'M')
  let location ← gdbMemory
  let _ ← token (ascii ':')
  let data ← mpcHexdigits
  return gdbNewCmd [name] (.memw ⟨location, data⟩)

/-- `gdb_packet_z`, with its assertion on the type. -/
def gdbPacketZ : Parser Byte Command := do
  let name ← firstOf [token (ascii 'z'), token (ascii 'Z')]
  let type ← oneOf (text "01234")
  let _ ← token (ascii ',')
  let address ← gdbAddress
  let _ ← token (ascii ',')
  let kind ← gdbUhex
  match ZType.ofInt (strtol 10 [type]) with
  | some type => return gdbNewCmd [name] (.bval ⟨type, address, kind⟩)
  | none => abort

def gdbPacketT : Parser Byte Command := do
  let name ← token (ascii 'T')
  let thread ← gdbThreadId
  return gdbNewCmd [name] (.tval thread)

/-- The name of a payload: what comes before its first colon. -/
def nameOf (payload : List Byte) : List Byte :=
  payload.takeWhile fun byte => byte != ascii ':'

/-- `gdb_any`, with `gdbf_ignarg` -/
def gdbAny : Parser Byte Command := do
  let payload ← many1 any
  return gdbNewCmd (nameOf payload) .unset

/-- `gdb_cmd`: the command and then the end of the payload. -/
def gdbCmd (command : Parser Byte Command) : Parser Byte Command := do
  let command ← command
  let _ ← endOfInput
  return command

/-- The alternatives of `gdb_parse_stage2` before the catch-all. -/
def gdbPackets : List (Parser Byte Command) :=
  [gdbCmd gdbPacketH, gdbCmd gdbPacketP, gdbCmd gdbPacketVcont,
    gdbCmd gdbPacketm, gdbCmd gdbPacketM, gdbCmd gdbPacketZ,
    gdbCmd gdbPacketT]

def gdbParseStage2 : Parser Byte Command :=
  firstOf (gdbPackets ++ [gdbAny])

/-- What `gdb_parse_cmd` does before it parses: the payload it parses. -/
def payload (packet : Packet) : Except Fault (List Byte) := do
  if packet.kind ≠ .packet then .error .einval
  else if !(← gdbIsValid packet) then .error .eilseq
  else
    match packet.data with
    | none => .error .assertion
    | some data => return gdbUnescape (← gdbDecodeRunlen data)

/-- `gdb_parse_cmd` -/
def gdbParseCmd (packet : Packet) : Except Fault Command := do
  match gdbParseStage2 (← payload packet) with
  | .parsed command _ => return command
  | .failed => .error .ebadmsg
  | .aborted => .error .assertion

end Gdb

end RiscvVp
