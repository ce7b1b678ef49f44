import RiscvVp.Core.Instruction
import RiscvVp.Core.Opcode

/-!
# The decoder of uncompressed instructions

`decodeNormal` follows the nested switches of the source, one definition for
each major opcode that switches further.  Every result passes through
`matchAndReturn`, which compares the whole word with the encoding before it
returns a mapping, so a decoded instruction carries its encoding
(`decodeNormal_spec`), except that a custom opcode is returned for every word
that has its major opcode.
-/

namespace RiscvVp

namespace Instruction

/-- `MATCH_AND_RETURN_INSTR2`: a mask that equals its encoding is not
compared at all. -/
def matchAndReturn2 (instr : Instruction) (encoding : Mapping.Encoding)
    (result : Mapping) : Mapping :=
  if encoding.mask = encoding.bits then result
  else if ¬ encoding.Matches instr then .undef
  else result

/-- `MATCH_AND_RETURN_INSTR` -/
def matchAndReturn (instr : Instruction) (result : Mapping) : Mapping :=
  matchAndReturn2 instr result.encoding result

/-- `OP_BEQ` -/
def decodeBranch (instr : Instruction) : Mapping :=
  match instr.funct3 with
  | 0b000 => matchAndReturn instr .beq
  | 0b001 => matchAndReturn instr .bne
  | 0b100 => matchAndReturn instr .blt
  | 0b101 => matchAndReturn instr .bge
  | 0b110 => matchAndReturn instr .bltu
  | 0b111 => matchAndReturn instr .bgeu
  | _ => (.undef)

/-- `OP_LB` -/
def decodeLoad (instr : Instruction) : Mapping :=
  match instr.funct3 with
  | 0b000 => matchAndReturn instr .lb
  | 0b001 => matchAndReturn instr .lh
  | 0b010 => matchAndReturn instr .lw
  | 0b100 => matchAndReturn instr .lbu
  | 0b101 => matchAndReturn instr .lhu
  | 0b110 => matchAndReturn instr .lwu
  | 0b011 => matchAndReturn instr .ld
  | _ => (.undef)

/-- `OP_SB` -/
def decodeStore (instr : Instruction) : Mapping :=
  match instr.funct3 with
  | 0b000 => matchAndReturn instr .sb
  | 0b001 => matchAndReturn instr .sh
  | 0b010 => matchAndReturn instr .sw
  | 0b011 => matchAndReturn instr .sd
  | _ => (.undef)

/-- `OP_ADDI`.  The 32-bit shifts compare one more bit. -/
def decodeImmediate (arch : Architecture) (instr : Instruction) : Mapping :=
  match instr.funct3 with
  | 0b000 => matchAndReturn instr .addi
  | 0b010 => matchAndReturn instr .slti
  | 0b011 => matchAndReturn instr .sltiu
  | 0b100 => matchAndReturn instr .xori
  | 0b110 => matchAndReturn instr .ori
  | 0b111 => matchAndReturn instr .andi
  | 0b001 =>
      if arch = .rv32 then matchAndReturn2 instr Mapping.slli32 .slli
      else matchAndReturn instr .slli
  | 0b101 =>
      match instr.funct6 with
      | 0b000000 =>
          if arch = .rv32 then matchAndReturn2 instr Mapping.srli32 .srli
          else matchAndReturn instr .srli
      | 0b010000 =>
          if arch = .rv32 then matchAndReturn2 instr Mapping.srai32 .srai
          else matchAndReturn instr .srai
      | _ => (.undef)

/-- `OP_ADDIW` -/
def decodeImmediateWord (instr : Instruction) : Mapping :=
  match instr.funct3 with
  | 0b000 => matchAndReturn instr .addiw
  | 0b001 => matchAndReturn instr .slliw
  | 0b101 =>
      match instr.funct7 with
      | 0b0000000 => matchAndReturn instr .srliw
      | 0b0100000 => matchAndReturn instr .sraiw
      | _ => .undef
  | _ => (.undef)

/-- `OP_ADD` -/
def decodeRegister (instr : Instruction) : Mapping :=
  match instr.funct7 with
  | 0b0000000 =>
      match instr.funct3 with
      | 0b000 => matchAndReturn instr .add
      | 0b001 => matchAndReturn instr .sll
      | 0b010 => matchAndReturn instr .slt
      | 0b011 => matchAndReturn instr .sltu
      | 0b100 => matchAndReturn instr .xor
      | 0b101 => matchAndReturn instr .srl
      | 0b110 => matchAndReturn instr .or
      | 0b111 => matchAndReturn instr .and
  | 0b0100000 =>
      match instr.funct3 with
      | 0b000 => matchAndReturn instr .sub
      | 0b101 => matchAndReturn instr .sra
      | _ => .undef
  | 0b0000001 =>
      match instr.funct3 with
      | 0b000 => matchAndReturn instr .mul
      | 0b001 => matchAndReturn instr .mulh
      | 0b010 => matchAndReturn instr .mulhsu
      | 0b011 => matchAndReturn instr .mulhu
      | 0b100 => matchAndReturn instr .div
      | 0b101 => matchAndReturn instr .divu
      | 0b110 => matchAndReturn instr .rem
      | 0b111 => matchAndReturn instr .remu
  | _ => (.undef)

/-- `OP_ADDW` -/
def decodeRegisterWord (instr : Instruction) : Mapping :=
  match instr.funct7 with
  | 0b0000000 =>
      match instr.funct3 with
      | 0b000 => matchAndReturn instr .addw
      | 0b001 => matchAndReturn instr .sllw
      | 0b101 => matchAndReturn instr .srlw
      | _ => .undef
  | 0b0100000 =>
      match instr.funct3 with
      | 0b000 => matchAndReturn instr .subw
      | 0b101 => matchAndReturn instr .sraw
      | _ => .undef
  | 0b0000001 =>
      match instr.funct3 with
      | 0b000 => matchAndReturn instr .mulw
      | 0b100 => matchAndReturn instr .divw
      | 0b101 => matchAndReturn instr .divuw
      | 0b110 => matchAndReturn instr .remw
      | 0b111 => matchAndReturn instr .remuw
      | _ => .undef
  | _ => (.undef)

/-- `OP_FENCE` -/
def decodeFence (instr : Instruction) : Mapping :=
  match instr.funct3 with
  | 0b000 => matchAndReturn instr .fence
  | 0b001 => matchAndReturn instr .fenceI
  | _ => (.undef)

/-- `OP_ECALL` -/
def decodeSystem (instr : Instruction) : Mapping :=
  match instr.funct3 with
  | 0b000 =>
      match instr.funct12 with
      | 0b000000000000 => matchAndReturn instr .ecall
      | 0b000000000001 => matchAndReturn instr .ebreak
      | 0b000000000010 => matchAndReturn instr .uret
      | 0b000100000010 => matchAndReturn instr .sret
      | 0b001100000010 => matchAndReturn instr .mret
      | 0b000100000101 => matchAndReturn instr .wfi
      | _ => matchAndReturn instr .sfenceVma
  | 0b001 => matchAndReturn instr .csrrw
  | 0b010 => matchAndReturn instr .csrrs
  | 0b011 => matchAndReturn instr .csrrc
  | 0b101 => matchAndReturn instr .csrrwi
  | 0b110 => matchAndReturn instr .csrrsi
  | 0b111 => matchAndReturn instr .csrrci
  | _ => (.undef)

/-- One case of `OP_AMO`: the doubleword form for `F3_AMO_D`, else the word
form. -/
def decodeAmoWidth (instr : Instruction) (double word : Mapping) : Mapping :=
  if instr.funct3 = 0b011 then matchAndReturn instr double
  else matchAndReturn instr word

/-- `OP_AMO` -/
def decodeAmo (instr : Instruction) : Mapping :=
  match instr.funct5 with
  | 0b00010 => decodeAmoWidth instr .lrD .lrW
  | 0b00011 => decodeAmoWidth instr .scD .scW
  | 0b00001 => decodeAmoWidth instr .amoswapD .amoswapW
  | 0b00000 => decodeAmoWidth instr .amoaddD .amoaddW
  | 0b00100 => decodeAmoWidth instr .amoxorD .amoxorW
  | 0b01100 => decodeAmoWidth instr .amoandD .amoandW
  | 0b01000 => decodeAmoWidth instr .amoorD .amoorW
  | 0b10000 => decodeAmoWidth instr .amominD .amominW
  | 0b10100 => decodeAmoWidth instr .amomaxD .amomaxW
  | 0b11000 => decodeAmoWidth instr .amominuD .amominuW
  | 0b11100 => decodeAmoWidth instr .amomaxuD .amomaxuW
  | _ => (.undef)

/-- The four fused multiply opcodes differ in their two mappings only. -/
def decodeFused (instr : Instruction) (single double : Mapping) : Mapping :=
  match instr.funct2 with
  | 0b00 => matchAndReturn instr single
  | 0b01 => matchAndReturn instr double
  | _ => (.undef)

/-- A switch over `funct3` of the comparison and sign injection groups. -/
def decodeFunct3 (instr : Instruction) (first second third : Mapping) :
    Mapping :=
  match instr.funct3 with
  | 0b000 => matchAndReturn instr first
  | 0b001 => matchAndReturn instr second
  | 0b010 => matchAndReturn instr third
  | _ => (.undef)

/-- A switch over `funct3` with two cases. -/
def decodeFunct3Pair (instr : Instruction) (first second : Mapping) :
    Mapping :=
  match instr.funct3 with
  | 0b000 => matchAndReturn instr first
  | 0b001 => matchAndReturn instr second
  | _ => (.undef)

/-- A switch over `rs2` of the conversion groups. -/
def decodeConversion (instr : Instruction)
    (word unsignedWord long unsignedLong : Mapping) : Mapping :=
  match instr.rs2 with
  | 0b00000 => matchAndReturn instr word
  | 0b00001 => matchAndReturn instr unsignedWord
  | 0b00010 => matchAndReturn instr long
  | 0b00011 => matchAndReturn instr unsignedLong
  | _ => (.undef)

/-- `OP_FADD_S` -/
def decodeFloat (instr : Instruction) : Mapping :=
  match instr.funct7 with
  | 0b0000000 => matchAndReturn instr .faddS
  | 0b0000001 => matchAndReturn instr .faddD
  | 0b0000100 => matchAndReturn instr .fsubS
  | 0b0000101 => matchAndReturn instr .fsubD
  | 0b0100001 => matchAndReturn instr .fcvtDS
  | 0b0001000 => matchAndReturn instr .fmulS
  | 0b0001001 => matchAndReturn instr .fmulD
  | 0b0001100 => matchAndReturn instr .fdivS
  | 0b0001101 => matchAndReturn instr .fdivD
  | 0b1010000 => decodeFunct3 instr .fleS .fltS .feqS
  | 0b0010001 => decodeFunct3 instr .fsgnjD .fsgnjnD .fsgnjxD
  | 0b0010100 => decodeFunct3Pair instr .fminS .fmaxS
  | 0b0010101 => decodeFunct3Pair instr .fminD .fmaxD
  | 0b0100000 => matchAndReturn instr .fcvtSD
  | 0b0010000 => decodeFunct3 instr .fsgnjS .fsgnjnS .fsgnjxS
  | 0b1010001 => decodeFunct3 instr .fleD .fltD .feqD
  | 0b1101000 => decodeConversion instr .fcvtSW .fcvtSWu .fcvtSL .fcvtSLu
  | 0b1101001 => decodeConversion instr .fcvtDW .fcvtDWu .fcvtDL .fcvtDLu
  | 0b1100001 => decodeConversion instr .fcvtWD .fcvtWuD .fcvtLD .fcvtLuD
  | 0b0101100 => matchAndReturn instr .fsqrtS
  | 0b0101101 => matchAndReturn instr .fsqrtD
  | 0b1100000 => decodeConversion instr .fcvtWS .fcvtWuS .fcvtLS .fcvtLuS
  | 0b1110000 => decodeFunct3Pair instr .fmvXW .fclassS
  | 0b1110001 => decodeFunct3Pair instr .fmvXD .fclassD
  | 0b1111000 => matchAndReturn instr .fmvWX
  | 0b1111001 => matchAndReturn instr .fmvDX
  | _ => (.undef)

/-- `OP_FLW` and `OP_FSW`: single or double by `funct3`. -/
def decodeFloatMemory (instr : Instruction) (single double : Mapping) :
    Mapping :=
  match instr.funct3 with
  | 0b010 => matchAndReturn instr single
  | 0b011 => matchAndReturn instr double
  | _ => (.undef)

/-- `Instruction::decode_normal` -/
def decodeNormal (arch : Architecture) (instr : Instruction) : Mapping :=
  match instr.opcode with
  | 0b0110111 => matchAndReturn instr .lui
  | 0b0010111 => matchAndReturn instr .auipc
  | 0b1101111 => matchAndReturn instr .jal
  | 0b1100111 => matchAndReturn instr .jalr
  | 0b1100011 => decodeBranch instr
  | 0b0000011 => decodeLoad instr
  | 0b0100011 => decodeStore instr
  | 0b0010011 => decodeImmediate arch instr
  | 0b0011011 => decodeImmediateWord instr
  | 0b0110011 => decodeRegister instr
  | 0b0111011 => decodeRegisterWord instr
  | 0b0001111 => decodeFence instr
  | 0b1110011 => decodeSystem instr
  | 0b0101111 => decodeAmo instr
  | 0b1000011 => decodeFused instr .fmaddS .fmaddD
  | 0b1010011 => decodeFloat instr
  | 0b0000111 => decodeFloatMemory instr .flw .fld
  | 0b0100111 => decodeFloatMemory instr .fsw .fsd
  | 0b1000111 => decodeFused instr .fmsubS .fmsubD
  | 0b1001011 => decodeFused instr .fnmsubS .fnmsubD
  | 0b1001111 => decodeFused instr .fnmaddS .fnmaddD
  | 0b0001011 => matchAndReturn instr .custom0
  | 0b0101011 => matchAndReturn instr .custom1
  | 0b1011011 => matchAndReturn instr .custom2
  | 0b1111011 => matchAndReturn instr .custom3
  | _ => (.undef)

/-! ## What the decoder promises -/

/-- The mappings of the four custom opcodes. -/
def IsCustomMapping (op : Mapping) : Prop :=
  op = .custom0 ∨ op = .custom1 ∨ op = .custom2 ∨ op = .custom3

instance (op : Mapping) : Decidable (IsCustomMapping op) :=
  inferInstanceAs (Decidable (_ ∨ _))

/-- An ordinary decoder result: nothing, or an instruction whose encoding the
word carries. -/
def Decoded (instr : Instruction) (op : Mapping) : Prop :=
  op = .undef ∨ (¬ IsCustomMapping op ∧ op.encoding.Matches instr)

section Decoded

variable (instr : Instruction)

@[simp]
theorem decoded_undef : Decoded instr .undef :=
  .inl rfl

theorem decoded_matchAndReturn2 {encoding : Mapping.Encoding}
    {op : Mapping} (compared : encoding.mask ≠ encoding.bits)
    (ordinary : ¬ IsCustomMapping op)
    (narrower : encoding.Matches instr → op.encoding.Matches instr) :
    Decoded instr (matchAndReturn2 instr encoding op) := by
  unfold matchAndReturn2
  rw [if_neg compared]
  split
  · exact decoded_undef instr
  · next matched => exact .inr ⟨ordinary, narrower (Decidable.not_not.1 matched)⟩

theorem decoded_matchAndReturn {op : Mapping}
    (compared : op.encoding.mask ≠ op.encoding.bits)
    (ordinary : ¬ IsCustomMapping op) :
    Decoded instr (matchAndReturn instr op) :=
  decoded_matchAndReturn2 instr compared ordinary id

/-- The 32-bit shifts compare a superset of the bits of the 64-bit ones. -/
theorem Matches.weaken {wide narrow : Mapping.Encoding}
    (covers : wide.mask &&& narrow.mask = narrow.mask)
    (bits : wide.bits &&& narrow.mask = narrow.bits)
    (matched : wide.Matches instr) : narrow.Matches instr := by
  unfold Mapping.Encoding.Matches at matched ⊢
  rw [← bits, ← matched, BitVec.and_assoc, covers]

theorem decodeBranch_decoded : Decoded instr (decodeBranch instr) := by
  unfold decodeBranch
  split <;> first
    | exact decoded_undef instr
    | exact decoded_matchAndReturn instr (by decide) (by decide)

theorem decodeLoad_decoded : Decoded instr (decodeLoad instr) := by
  unfold decodeLoad
  split <;> first
    | exact decoded_undef instr
    | exact decoded_matchAndReturn instr (by decide) (by decide)

theorem decodeStore_decoded : Decoded instr (decodeStore instr) := by
  unfold decodeStore
  split <;> first
    | exact decoded_undef instr
    | exact decoded_matchAndReturn instr (by decide) (by decide)

theorem decodeFence_decoded : Decoded instr (decodeFence instr) := by
  unfold decodeFence
  split <;> first
    | exact decoded_undef instr
    | exact decoded_matchAndReturn instr (by decide) (by decide)

theorem decodeImmediateWord_decoded : Decoded instr (decodeImmediateWord instr) := by
  unfold decodeImmediateWord
  split
  all_goals first
    | exact decoded_undef instr
    | exact decoded_matchAndReturn instr (by decide) (by decide)
    | skip
  all_goals
    split <;> first
      | exact decoded_undef instr
      | exact decoded_matchAndReturn instr (by decide) (by decide)

theorem decodeRegister_decoded : Decoded instr (decodeRegister instr) := by
  unfold decodeRegister
  split
  case h_4 => exact decoded_undef instr
  all_goals
    split <;> first
      | exact decoded_undef instr
      | exact decoded_matchAndReturn instr (by decide) (by decide)

theorem decodeRegisterWord_decoded : Decoded instr (decodeRegisterWord instr) := by
  unfold decodeRegisterWord
  split
  case h_4 => exact decoded_undef instr
  all_goals
    split <;> first
      | exact decoded_undef instr
      | exact decoded_matchAndReturn instr (by decide) (by decide)

theorem decodeSystem_decoded : Decoded instr (decodeSystem instr) := by
  unfold decodeSystem
  split
  all_goals first
    | exact decoded_undef instr
    | exact decoded_matchAndReturn instr (by decide) (by decide)
    | skip
  all_goals
    split <;> first
      | exact decoded_undef instr
      | exact decoded_matchAndReturn instr (by decide) (by decide)

theorem decodeImmediate_decoded (arch : Architecture) :
    Decoded instr (decodeImmediate arch instr) := by
  have slli : Decoded instr (matchAndReturn2 instr Mapping.slli32 .slli) :=
    decoded_matchAndReturn2 instr (by decide) (by decide) <|
      Matches.weaken instr (by decide) (by decide)
  have srli : Decoded instr (matchAndReturn2 instr Mapping.srli32 .srli) :=
    decoded_matchAndReturn2 instr (by decide) (by decide) <|
      Matches.weaken instr (by decide) (by decide)
  have srai : Decoded instr (matchAndReturn2 instr Mapping.srai32 .srai) :=
    decoded_matchAndReturn2 instr (by decide) (by decide) <|
      Matches.weaken instr (by decide) (by decide)
  unfold decodeImmediate
  split
  case h_7 =>
    split
    · exact slli
    · exact decoded_matchAndReturn instr (by decide) (by decide)
  case h_8 =>
    split
    · split
      · exact srli
      · exact decoded_matchAndReturn instr (by decide) (by decide)
    · split
      · exact srai
      · exact decoded_matchAndReturn instr (by decide) (by decide)
    · exact decoded_undef instr
  all_goals exact decoded_matchAndReturn instr (by decide) (by decide)

section Choices

variable {first second third fourth : Mapping}

/-- A mapping that the decoder may return after comparing its encoding. -/
def Comparable (op : Mapping) : Prop :=
  op.encoding.mask ≠ op.encoding.bits ∧ ¬ IsCustomMapping op

instance (op : Mapping) : Decidable (Comparable op) :=
  inferInstanceAs (Decidable (_ ∧ _))

theorem Comparable.decoded {op : Mapping} (comparable : Comparable op) :
    Decoded instr (matchAndReturn instr op) :=
  decoded_matchAndReturn instr comparable.1 comparable.2

theorem decodeAmoWidth_decoded (double : Comparable first)
    (word : Comparable second) :
    Decoded instr (decodeAmoWidth instr first second) := by
  unfold decodeAmoWidth
  split
  · exact double.decoded instr
  · exact word.decoded instr

theorem decodeFused_decoded (single : Comparable first)
    (double : Comparable second) :
    Decoded instr (decodeFused instr first second) := by
  unfold decodeFused
  split
  · exact single.decoded instr
  · exact double.decoded instr
  · exact decoded_undef instr

theorem decodeFloatMemory_decoded (single : Comparable first)
    (double : Comparable second) :
    Decoded instr (decodeFloatMemory instr first second) := by
  unfold decodeFloatMemory
  split
  · exact single.decoded instr
  · exact double.decoded instr
  · exact decoded_undef instr

theorem decodeFunct3Pair_decoded (zero : Comparable first)
    (one : Comparable second) :
    Decoded instr (decodeFunct3Pair instr first second) := by
  unfold decodeFunct3Pair
  split
  · exact zero.decoded instr
  · exact one.decoded instr
  · exact decoded_undef instr

theorem decodeFunct3_decoded (zero : Comparable first)
    (one : Comparable second) (two : Comparable third) :
    Decoded instr (decodeFunct3 instr first second third) := by
  unfold decodeFunct3
  split
  · exact zero.decoded instr
  · exact one.decoded instr
  · exact two.decoded instr
  · exact decoded_undef instr

theorem decodeConversion_decoded (zero : Comparable first)
    (one : Comparable second) (two : Comparable third)
    (three : Comparable fourth) :
    Decoded instr (decodeConversion instr first second third fourth) := by
  unfold decodeConversion
  split
  · exact zero.decoded instr
  · exact one.decoded instr
  · exact two.decoded instr
  · exact three.decoded instr
  · exact decoded_undef instr

end Choices

theorem decodeAmo_decoded : Decoded instr (decodeAmo instr) := by
  unfold decodeAmo
  split <;> first
    | exact decoded_undef instr
    | exact decodeAmoWidth_decoded instr (by decide) (by decide)

theorem decodeFloat_decoded : Decoded instr (decodeFloat instr) := by
  unfold decodeFloat
  split <;> first
    | exact decoded_undef instr
    | exact decoded_matchAndReturn instr (by decide) (by decide)
    | exact decodeFunct3Pair_decoded instr (by decide) (by decide)
    | exact decodeFunct3_decoded instr (by decide) (by decide) (by decide)
    | exact decodeConversion_decoded instr (by decide) (by decide)
        (by decide) (by decide)

end Decoded

/-- The mapping of a custom major opcode, which is returned unseen. -/
def customMapping? (instr : Instruction) : Option Mapping :=
  match instr.opcode with
  | 0b0001011 => some .custom0
  | 0b0101011 => some .custom1
  | 0b1011011 => some .custom2
  | 0b1111011 => some .custom3
  | _ => none

theorem isCustom_eq_isSome (instr : Instruction) :
    instr.isCustom = instr.customMapping?.isSome := by
  unfold isCustom customMapping?
  split
  · next equality => rw [equality]; rfl
  · next equality => rw [equality]; rfl
  · next equality => rw [equality]; rfl
  · next equality => rw [equality]; rfl
  · next first second third fourth =>
      simp [beq_eq_false_iff_ne.2 first, beq_eq_false_iff_ne.2 second,
        beq_eq_false_iff_ne.2 third, beq_eq_false_iff_ne.2 fourth]

/-- A custom opcode decodes to its mapping whatever its other bits are. -/
theorem decodeNormal_of_custom (arch : Architecture) {instr : Instruction}
    {op : Mapping} (custom : instr.customMapping? = some op) :
    decodeNormal arch instr = op := by
  unfold customMapping? at custom
  unfold decodeNormal
  split at custom
  all_goals first
    | cases custom
      next equality => rw [equality]; rfl
    | cases custom

/-- Every other word decodes to nothing or to an encoding it carries. -/
theorem decodeNormal_spec (arch : Architecture) {instr : Instruction}
    (ordinary : instr.customMapping? = none) :
    Decoded instr (decodeNormal arch instr) := by
  unfold decodeNormal
  split
  all_goals first
    | exact decodeBranch_decoded instr
    | exact decodeLoad_decoded instr
    | exact decodeStore_decoded instr
    | exact decodeImmediate_decoded instr arch
    | exact decodeImmediateWord_decoded instr
    | exact decodeRegister_decoded instr
    | exact decodeRegisterWord_decoded instr
    | exact decodeFence_decoded instr
    | exact decodeSystem_decoded instr
    | exact decodeAmo_decoded instr
    | exact decodeFloat_decoded instr
    | exact decodeFused_decoded instr (by decide) (by decide)
    | exact decodeFloatMemory_decoded instr (by decide) (by decide)
    | exact decoded_matchAndReturn instr (by decide) (by decide)
    | exact decoded_undef instr
    | next equality =>
        simp only [customMapping?, equality, reduceCtorEq] at ordinary

end Instruction

end RiscvVp
