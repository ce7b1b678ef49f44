import Mathlib.Data.Nat.Notation

/-!
# Fields and immediates of an instruction word

The bit macros of the source act on a signed 32-bit word, so a right shift of
a run that contains bit 31 replicates the sign.  `asr` is that shift.
Register numbers and function codes are kept at their own width.
-/

namespace RiscvVp

/-- The decoded word, `instr.data()`. -/
abbrev Instruction : Type := BitVec 32

namespace Instruction

/-! ## Macros -/

/-- `BIT_RANGE(instr, upper, lower)` -/
def bitRange (instr : BitVec 32) (upper lower : Nat) : BitVec 32 :=
  instr &&& ((1#32 <<< (upper - lower + 1)) - 1) <<< lower

/-- The right shift of a signed operand. -/
def asr (value : BitVec 32) (amount : Nat) : BitVec 32 :=
  value.sshiftRight amount

/-- `BIT_SLICE(instr, upper, lower)` -/
def bitSlice (instr : BitVec 32) (upper lower : Nat) : BitVec 32 :=
  asr (bitRange instr upper lower) lower

/-- `BIT_SINGLE(instr, pos)` -/
def bitSingle (instr : BitVec 32) (pos : Nat) : BitVec 32 :=
  instr &&& 1#32 <<< pos

/-- `BIT_SINGLE_P1(instr, pos)` -/
def bitSingleP1 (instr : BitVec 32) (pos : Nat) : BitVec 32 :=
  asr (bitSingle instr pos) pos

/-- `BIT_SINGLE_PN(instr, pos, new_pos)` -/
def bitSinglePN (instr : BitVec 32) (pos newPos : Nat) : BitVec 32 :=
  asr (bitSingle instr pos) pos <<< newPos

/-- `EXTRACT_SIGN_BIT(instr, pos, new_pos)` -/
def extractSignBit (instr : BitVec 32) (pos newPos : Nat) : BitVec 32 :=
  asr (bitSingleP1 instr pos <<< 31) (31 - newPos)

/-! ## Fields -/

def opcode (instr : Instruction) : BitVec 7 := instr.extractLsb' 0 7

def rd (instr : Instruction) : BitVec 5 := instr.extractLsb' 7 5

def funct3 (instr : Instruction) : BitVec 3 := instr.extractLsb' 12 3

def rs1 (instr : Instruction) : BitVec 5 := instr.extractLsb' 15 5

def rs2 (instr : Instruction) : BitVec 5 := instr.extractLsb' 20 5

def rs3 (instr : Instruction) : BitVec 5 := instr.extractLsb' 27 5

def funct2 (instr : Instruction) : BitVec 2 := instr.extractLsb' 25 2

def funct5 (instr : Instruction) : BitVec 5 := instr.extractLsb' 27 5

def funct6 (instr : Instruction) : BitVec 6 := instr.extractLsb' 26 6

def funct7 (instr : Instruction) : BitVec 7 := instr.extractLsb' 25 7

def funct12 (instr : Instruction) : BitVec 12 := instr.extractLsb' 20 12

def frm (instr : Instruction) : BitVec 3 := instr.extractLsb' 12 3

/-- The CSR address, a `uint32_t` below `0x1000`. -/
def csr (instr : Instruction) : BitVec 32 :=
  (instr.extractLsb' 20 12).setWidth 32

/-- The unsigned immediate of the CSR instructions. -/
def zimm (instr : Instruction) : BitVec 32 :=
  (instr.extractLsb' 15 5).setWidth 32

/-- Six bits, of which a 32-bit shift uses five. -/
def shamt (instr : Instruction) : BitVec 6 := instr.extractLsb' 20 6

def iImm (instr : Instruction) : BitVec 32 :=
  asr (bitRange instr 31 20) 20

def sImm (instr : Instruction) : BitVec 32 :=
  asr (bitRange instr 31 25) 20 ||| asr (bitRange instr 11 7) 7

def bImm (instr : Instruction) : BitVec 32 :=
  asr (bitSingle instr 31) 19 ||| bitSingle instr 7 <<< 4 |||
    asr (bitRange instr 30 25) 20 ||| asr (bitRange instr 11 8) 7

def uImm (instr : Instruction) : BitVec 32 :=
  bitRange instr 31 12

def jImm (instr : Instruction) : BitVec 32 :=
  asr (bitSingle instr 31) 11 ||| bitRange instr 19 12 |||
    asr (bitSingle instr 20) 9 ||| asr (bitRange instr 30 21) 20

/-- `is_custom`: one of the four custom opcodes. -/
def isCustom (instr : Instruction) : Bool :=
  instr.opcode == 0b0001011 || instr.opcode == 0b0101011 ||
    instr.opcode == 0b1011011 || instr.opcode == 0b1111011

/-! ## Fields of a compressed instruction -/

def quadrant (instr : Instruction) : BitVec 2 := instr.extractLsb' 0 2

def isCompressed (instr : Instruction) : Bool := instr.quadrant < 3

def cFormat (instr : Instruction) : BitVec 32 := instr &&& 0xffff

def cOpcode (instr : Instruction) : BitVec 3 := instr.extractLsb' 13 3

def cB12 (instr : Instruction) : Bool := instr.getLsbD 12

def cRd (instr : Instruction) : BitVec 5 := instr.rd

/-- Registers `x8` to `x15`. -/
def cRdSmall (instr : Instruction) : BitVec 5 :=
  (instr.extractLsb' 7 3).setWidth 5 ||| 8

def cRs2Small (instr : Instruction) : BitVec 5 :=
  (instr.extractLsb' 2 3).setWidth 5 ||| 8

def cRs2 (instr : Instruction) : BitVec 5 := instr.extractLsb' 2 5

def cImm (instr : Instruction) : BitVec 32 :=
  bitSlice instr 6 2 ||| extractSignBit instr 12 5

def cUimm (instr : Instruction) : BitVec 32 :=
  bitSlice instr 6 2 ||| bitSingleP1 instr 12 <<< 5

def cF2High (instr : Instruction) : BitVec 2 := instr.extractLsb' 10 2

def cF2Low (instr : Instruction) : BitVec 2 := instr.extractLsb' 5 2

end Instruction

end RiscvVp
