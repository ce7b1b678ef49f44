import RiscvVp.Core.Instruction
import RiscvVp.Core.Opcode

/-!
# Compressed instructions

A compressed word is decoded to a compressed opcode and then expanded to the
32-bit instruction it abbreviates.  Only the low half of the fetched word is
looked at, but a word that stays undefined is returned whole.
-/

namespace RiscvVp

namespace Compressed

/-- `Compressed::Opcode` -/
inductive Opcode : Type
  | illegal
  | reserved
  | addi4spn
  | fld
  | lq
  | lw
  | flw
  | ld
  | fsd
  | sq
  | sw
  | fsw
  | sd
  | nop
  | addi
  | jal
  | addiw
  | li
  | addi16sp
  | lui
  | srli
  | srai
  | andi
  | sub
  | xor
  | or
  | and
  | subw
  | addw
  | j
  | beqz
  | bnez
  | slli
  | fldsp
  | lqsp
  | lwsp
  | flwsp
  | ldsp
  | jr
  | mv
  | ebreak
  | jalr
  | add
  | fsdsp
  | sqsp
  | swsp
  | fswsp
  | sdsp
  deriving DecidableEq, Repr

end Compressed

namespace Instruction

/-! ## Immediates -/

def cAddi4spnNzuimm (n : BitVec 32) : BitVec 32 :=
  bitSlice n 12 11 <<< 4 ||| bitSlice n 10 7 <<< 6 |||
    bitSingleP1 n 6 <<< 2 ||| bitSingleP1 n 5 <<< 3

def cLwUimm (n : BitVec 32) : BitVec 32 :=
  bitSlice n 12 10 <<< 3 ||| bitSingleP1 n 6 <<< 2 |||
    bitSingleP1 n 5 <<< 6

def cLdUimm (n : BitVec 32) : BitVec 32 :=
  bitSlice n 12 10 <<< 3 ||| bitSlice n 6 5 <<< 6

def cSwUimm (n : BitVec 32) : BitVec 32 := cLwUimm n

def cSdUimm (n : BitVec 32) : BitVec 32 := cLdUimm n

def cJalImm (n : BitVec 32) : BitVec 32 :=
  extractSignBit n 12 11 ||| bitSinglePN n 11 4 ||| bitSlice n 10 9 <<< 8 |||
    bitSinglePN n 8 10 ||| bitSinglePN n 7 6 ||| bitSinglePN n 6 7 |||
    bitSlice n 5 3 <<< 1 ||| bitSinglePN n 2 5

def cAddi16spNzimm (n : BitVec 32) : BitVec 32 :=
  extractSignBit n 12 9 ||| bitSinglePN n 6 4 ||| bitSinglePN n 5 6 |||
    bitSlice n 4 3 <<< 7 ||| bitSinglePN n 2 5

def cLuiNzimm (n : BitVec 32) : BitVec 32 :=
  extractSignBit n 12 17 ||| bitSlice n 6 2 <<< 12

def cJImm (n : BitVec 32) : BitVec 32 := cJalImm n

def cBranchImm (n : BitVec 32) : BitVec 32 :=
  extractSignBit n 12 8 ||| bitSlice n 11 10 <<< 3 ||| bitSlice n 6 5 <<< 6 |||
    bitSlice n 4 3 <<< 1 ||| bitSinglePN n 2 5

def cLwspUimm (n : BitVec 32) : BitVec 32 :=
  bitSinglePN n 12 5 ||| bitSlice n 6 4 <<< 2 ||| bitSlice n 3 2 <<< 6

def cSwspUimm (n : BitVec 32) : BitVec 32 :=
  bitSlice n 12 9 <<< 2 ||| bitSlice n 8 7 <<< 6

def cLdspUimm (n : BitVec 32) : BitVec 32 :=
  bitSinglePN n 12 5 ||| bitSlice n 6 5 <<< 3 ||| bitSlice n 4 2 <<< 6

def cSdspUimm (n : BitVec 32) : BitVec 32 :=
  bitSlice n 12 10 <<< 3 ||| bitSlice n 9 7 <<< 6

/-! ## `InstructionFactory` -/

namespace Factory

/-- The three register fields of an R-type word. -/
def registers (rd rs1 rs2 : BitVec 5) : BitVec 32 :=
  rd.setWidth 32 <<< 7 ||| rs1.setWidth 32 <<< 15 |||
    rs2.setWidth 32 <<< 20

def add (rd rs1 rs2 : BitVec 5) : Instruction :=
  registers rd rs1 rs2 ||| 51 ||| 0 <<< 12 ||| 0 <<< 25

def and (rd rs1 rs2 : BitVec 5) : Instruction :=
  registers rd rs1 rs2 ||| 51 ||| 7 <<< 12 ||| 0 <<< 25

def or (rd rs1 rs2 : BitVec 5) : Instruction :=
  registers rd rs1 rs2 ||| 51 ||| 6 <<< 12 ||| 0 <<< 25

def xor (rd rs1 rs2 : BitVec 5) : Instruction :=
  registers rd rs1 rs2 ||| 51 ||| 4 <<< 12 ||| 0 <<< 25

def sub (rd rs1 rs2 : BitVec 5) : Instruction :=
  registers rd rs1 rs2 ||| 51 ||| 0 <<< 12 ||| 32 <<< 25

def addw (rd rs1 rs2 : BitVec 5) : Instruction :=
  registers rd rs1 rs2 ||| 0x3b

def subw (rd rs1 rs2 : BitVec 5) : Instruction :=
  registers rd rs1 rs2 ||| 0x3b ||| 0x40000000

/-- An I-type word. -/
def immediate (rd rs1 : BitVec 5) (iImm : BitVec 32) : BitVec 32 :=
  (iImm &&& 4095) <<< 20 ||| rd.setWidth 32 <<< 7 ||| rs1.setWidth 32 <<< 15

def lw (rd rs1 : BitVec 5) (iImm : BitVec 32) : Instruction :=
  immediate rd rs1 iImm ||| 3 ||| 2 <<< 12

def ld (rd rs1 : BitVec 5) (iImm : BitVec 32) : Instruction :=
  immediate rd rs1 iImm ||| 3 ||| 3 <<< 12

def flw (rd rs1 : BitVec 5) (iImm : BitVec 32) : Instruction :=
  immediate rd rs1 iImm ||| 7 ||| 2 <<< 12

def fld (rd rs1 : BitVec 5) (iImm : BitVec 32) : Instruction :=
  immediate rd rs1 iImm ||| 7 ||| 3 <<< 12

def addi (rd rs1 : BitVec 5) (iImm : BitVec 32) : Instruction :=
  immediate rd rs1 iImm ||| 19 ||| 0 <<< 12

def andi (rd rs1 : BitVec 5) (iImm : BitVec 32) : Instruction :=
  immediate rd rs1 iImm ||| 19 ||| 7 <<< 12

def jalr (rd rs1 : BitVec 5) (iImm : BitVec 32) : Instruction :=
  immediate rd rs1 iImm ||| 103 ||| 0 <<< 12

/-- An S-type word. -/
def storeFormat (rs1 rs2 : BitVec 5) (sImm : BitVec 32) : BitVec 32 :=
  (sImm &&& 0b11111) <<< 7 ||| (sImm &&& 0b1111111 <<< 5) <<< 20 |||
    rs1.setWidth 32 <<< 15 ||| rs2.setWidth 32 <<< 20

def sw (rs1 rs2 : BitVec 5) (sImm : BitVec 32) : Instruction :=
  storeFormat rs1 rs2 sImm ||| 35 ||| 2 <<< 12

def sd (rs1 rs2 : BitVec 5) (sImm : BitVec 32) : Instruction :=
  storeFormat rs1 rs2 sImm ||| 35 ||| 3 <<< 12

def fsw (rs1 rs2 : BitVec 5) (sImm : BitVec 32) : Instruction :=
  storeFormat rs1 rs2 sImm ||| 39 ||| 2 <<< 12

def fsd (rs1 rs2 : BitVec 5) (sImm : BitVec 32) : Instruction :=
  storeFormat rs1 rs2 sImm ||| 39 ||| 3 <<< 12

def lui (rd : BitVec 5) (uImm : BitVec 32) : Instruction :=
  (uImm &&& 1048575 <<< 12) ||| rd.setWidth 32 <<< 7 ||| 55

/-- A shift by a constant: an I-type word with six bits of immediate. -/
def shift (rd rs1 : BitVec 5) (shamt : BitVec 32) : BitVec 32 :=
  rd.setWidth 32 <<< 7 ||| rs1.setWidth 32 <<< 15 ||| (shamt &&& 63) <<< 20

def srli (rd rs1 : BitVec 5) (shamt : BitVec 32) : Instruction :=
  shift rd rs1 shamt ||| 19 ||| 5 <<< 12 ||| 0 <<< 25

def srai (rd rs1 : BitVec 5) (shamt : BitVec 32) : Instruction :=
  shift rd rs1 shamt ||| 19 ||| 5 <<< 12 ||| 32 <<< 25

def slli (rd rs1 : BitVec 5) (shamt : BitVec 32) : Instruction :=
  shift rd rs1 shamt ||| 19 ||| 1 <<< 12 ||| 0 <<< 25

def jal (rd : BitVec 5) (jImm : BitVec 32) : Instruction :=
  111 ||| rd.setWidth 32 <<< 7 |||
    ((jImm &&& 0b11111111 <<< 12) ||| (jImm &&& 1 <<< 11) <<< 9 |||
      (jImm &&& 0b11111111110) <<< 20 ||| (jImm &&& 1 <<< 20) <<< 11)

/-- A B-type word. -/
def branchFormat (rs1 rs2 : BitVec 5) (bImm : BitVec 32) : BitVec 32 :=
  (bImm &&& 0b11110) <<< 7 ||| asr (bImm &&& 1 <<< 11) 4 |||
    ((bImm &&& 0b111111 <<< 5) <<< 20 ||| (bImm &&& 1 <<< 12) <<< 19) |||
    rs1.setWidth 32 <<< 15 ||| rs2.setWidth 32 <<< 20

def beq (rs1 rs2 : BitVec 5) (bImm : BitVec 32) : Instruction :=
  branchFormat rs1 rs2 bImm ||| 99 ||| 0 <<< 12

def bne (rs1 rs2 : BitVec 5) (bImm : BitVec 32) : Instruction :=
  branchFormat rs1 rs2 bImm ||| 99 ||| 1 <<< 12

def ebreak : Instruction := 1048691

end Factory

/-! ## Decoding -/

/-- Quadrant zero of `decode_compressed`. -/
def decodeQuadrant0 (arch : Architecture) (instr : Instruction) :
    Compressed.Opcode :=
  match instr.cOpcode with
  | 0b000 => if instr.cFormat = 0 then .illegal else .addi4spn
  | 0b001 => .fld
  | 0b010 => .lw
  | 0b011 => if arch = .rv32 then .flw else .ld
  | 0b100 => .reserved
  | 0b101 => .fsd
  | 0b110 => .sw
  | 0b111 => if arch = .rv32 then .fsw else .sd

/-- The arithmetic group of quadrant one. -/
def decodeQuadrant1Arithmetic (instr : Instruction) : Compressed.Opcode :=
  match instr.cF2High with
  | 0b00 => .srli
  | 0b01 => .srai
  | 0b10 => .andi
  | 0b11 =>
      if instr.cB12 then
        match instr.cF2Low with
        | 0b00 => .subw
        | 0b01 => .addw
        | _ => .reserved
      else
        match instr.cF2Low with
        | 0b00 => .sub
        | 0b01 => .xor
        | 0b10 => .or
        | 0b11 => .and

/-- Quadrant one of `decode_compressed`. -/
def decodeQuadrant1 (arch : Architecture) (instr : Instruction) :
    Compressed.Opcode :=
  match instr.cOpcode with
  | 0b000 => if instr.cFormat = 1 then .nop else .addi
  | 0b001 => if arch = .rv32 then .jal else .addiw
  | 0b010 => .li
  | 0b011 => if instr.cRd = 2 then .addi16sp else .lui
  | 0b100 => decodeQuadrant1Arithmetic instr
  | 0b101 => .j
  | 0b110 => .beqz
  | 0b111 => .bnez

/-- Quadrant two of `decode_compressed`. -/
def decodeQuadrant2 (arch : Architecture) (instr : Instruction) :
    Compressed.Opcode :=
  match instr.cOpcode with
  | 0b000 => .slli
  | 0b001 => .fldsp
  | 0b010 => .lwsp
  | 0b011 => if arch = .rv32 then .flwsp else .ldsp
  | 0b100 =>
      if instr.cB12 then
        if instr.cRd ≠ 0 then
          if instr.cRs2 ≠ 0 then .add else .jalr
        else .ebreak
      else
        if instr.cRs2 ≠ 0 then .mv else .jr
  | 0b101 => .fsdsp
  | 0b110 => .swsp
  | 0b111 => if arch = .rv32 then .fswsp else .sdsp

/-- `decode_compressed`; nothing stands for the thrown error of an
uncompressed word. -/
def decodeCompressed (arch : Architecture) (instr : Instruction) :
    Option Compressed.Opcode :=
  match instr.quadrant with
  | 0b00 => some (decodeQuadrant0 arch instr)
  | 0b01 => some (decodeQuadrant1 arch instr)
  | 0b10 => some (decodeQuadrant2 arch instr)
  | 0b11 => none

/-- `expand_compressed` -/
def expandCompressed (arch : Architecture) (instr : Instruction) :
    Compressed.Opcode → Mapping × Instruction
  | .illegal | .lq | .lqsp | .sq | .sqsp | .reserved => (.undef, instr)
  | .nop => (.add, Factory.add 0 0 0)
  | .add => (.add, Factory.add instr.cRd instr.cRd instr.cRs2)
  | .mv => (.add, Factory.add instr.cRd 0 instr.cRs2)
  | .and =>
      (.and, Factory.and instr.cRdSmall instr.cRdSmall instr.cRs2Small)
  | .or => (.or, Factory.or instr.cRdSmall instr.cRdSmall instr.cRs2Small)
  | .xor =>
      (.xor, Factory.xor instr.cRdSmall instr.cRdSmall instr.cRs2Small)
  | .sub =>
      (.sub, Factory.sub instr.cRdSmall instr.cRdSmall instr.cRs2Small)
  | .addw =>
      (.addw, Factory.addw instr.cRdSmall instr.cRdSmall instr.cRs2Small)
  | .subw =>
      (.subw, Factory.subw instr.cRdSmall instr.cRdSmall instr.cRs2Small)
  | .lw => (.lw, Factory.lw instr.cRs2Small instr.cRdSmall (cLwUimm instr))
  | .ld => (.ld, Factory.ld instr.cRs2Small instr.cRdSmall (cLdUimm instr))
  | .flw =>
      (.flw, Factory.flw instr.cRs2Small instr.cRdSmall (cLwUimm instr))
  | .fld =>
      (.fld, Factory.fld instr.cRs2Small instr.cRdSmall (cLdUimm instr))
  | .sw => (.sw, Factory.sw instr.cRdSmall instr.cRs2Small (cSwUimm instr))
  | .sd => (.sd, Factory.sd instr.cRdSmall instr.cRs2Small (cSdUimm instr))
  | .fsw =>
      (.fsw, Factory.fsw instr.cRdSmall instr.cRs2Small (cSwUimm instr))
  | .fsd =>
      (.fsd, Factory.fsd instr.cRdSmall instr.cRs2Small (cSdUimm instr))
  | .addi4spn =>
      let n := cAddi4spnNzuimm instr
      if n = 0 then (.undef, instr)
      else (.addi, Factory.addi instr.cRs2Small 2 n)
  | .addi => (.addi, Factory.addi instr.cRd instr.cRd instr.cImm)
  | .jal => (.jal, Factory.jal 1 (cJalImm instr))
  | .addiw =>
      if instr.cRd = 0 then (.undef, instr)
      else (.addiw, Factory.addi instr.cRd instr.cRd instr.cImm)
  | .li => (.addi, Factory.addi instr.cRd 0 instr.cImm)
  | .addi16sp =>
      let n := cAddi16spNzimm instr
      if n = 0 then (.undef, instr) else (.addi, Factory.addi 2 2 n)
  | .lui =>
      let n := cLuiNzimm instr
      if n = 0 then (.undef, instr) else (.lui, Factory.lui instr.cRd n)
  | .slli =>
      let n := instr.cUimm
      if arch = .rv32 ∧ n > 31 then (.undef, instr)
      else (.slli, Factory.slli instr.cRd instr.cRd n)
  | .srli =>
      let n := instr.cUimm
      if arch = .rv32 ∧ n > 31 then (.undef, instr)
      else (.srli, Factory.srli instr.cRdSmall instr.cRdSmall n)
  | .srai =>
      let n := instr.cUimm
      if arch = .rv32 ∧ n > 31 then (.undef, instr)
      else (.srai, Factory.srai instr.cRdSmall instr.cRdSmall n)
  | .andi => (.andi, Factory.andi instr.cRdSmall instr.cRdSmall instr.cImm)
  | .j => (.jal, Factory.jal 0 (cJImm instr))
  | .beqz => (.beq, Factory.beq instr.cRdSmall 0 (cBranchImm instr))
  | .bnez => (.bne, Factory.bne instr.cRdSmall 0 (cBranchImm instr))
  | .lwsp =>
      if instr.cRd = 0 then (.undef, instr)
      else (.lw, Factory.lw instr.cRd 2 (cLwspUimm instr))
  | .ldsp =>
      if instr.cRd = 0 then (.undef, instr)
      else (.ld, Factory.ld instr.cRd 2 (cLdspUimm instr))
  | .flwsp => (.flw, Factory.flw instr.cRd 2 (cLwspUimm instr))
  | .fldsp => (.fld, Factory.fld instr.cRd 2 (cLdspUimm instr))
  | .swsp => (.sw, Factory.sw 2 instr.cRs2 (cSwspUimm instr))
  | .sdsp => (.sd, Factory.sd 2 instr.cRs2 (cSdspUimm instr))
  | .fswsp => (.fsw, Factory.fsw 2 instr.cRs2 (cSwspUimm instr))
  | .fsdsp => (.fsd, Factory.fsd 2 instr.cRs2 (cSdspUimm instr))
  | .ebreak => (.ebreak, Factory.ebreak)
  | .jr =>
      if instr.cRd = 0 then (.undef, instr)
      else (.jalr, Factory.jalr 0 instr.cRd 0)
  | .jalr => (.jalr, Factory.jalr 1 instr.cRd 0)

/-- `Instruction::decode_and_expand_compressed` -/
def decodeAndExpandCompressed (arch : Architecture) (instr : Instruction) :
    Option (Mapping × Instruction) :=
  (decodeCompressed arch instr).map (expandCompressed arch instr)

/-- A compressed word is never refused by the decoder. -/
theorem decodeAndExpandCompressed_isSome (arch : Architecture)
    {instr : Instruction} (compressed : instr.isCompressed = true) :
    (decodeAndExpandCompressed arch instr).isSome := by
  unfold decodeAndExpandCompressed decodeCompressed
  rw [Option.isSome_map]
  split
  · rfl
  · rfl
  · rfl
  · next equality =>
      rw [isCompressed, equality] at compressed
      cases compressed

end Instruction

end RiscvVp
