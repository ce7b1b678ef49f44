import RiscvVp.Core.Trap

/-!
# Opcodes

`Mapping` is what the decoder maps an instruction to.  Every mapping has an
encoding: the bits that identify it and the values they take.  The decoder
compares both before it returns a mapping, apart from the custom opcodes,
whose mask equals their encoding so that the comparison is skipped.
-/

namespace RiscvVp

/-- The instructions the decoder knows, in the order of the source. -/
inductive Mapping : Type
  | undef
  -- RV32I base instruction set
  | lui
  | auipc
  | jal
  | jalr
  | beq
  | bne
  | blt
  | bge
  | bltu
  | bgeu
  | lb
  | lh
  | lw
  | lbu
  | lhu
  | sb
  | sh
  | sw
  | addi
  | slti
  | sltiu
  | xori
  | ori
  | andi
  | slli
  | srli
  | srai
  | add
  | sub
  | sll
  | slt
  | sltu
  | xor
  | srl
  | sra
  | or
  | and
  | fence
  | ecall
  | ebreak
  -- Zifencei standard extension
  | fenceI
  -- Zicsr standard extension
  | csrrw
  | csrrs
  | csrrc
  | csrrwi
  | csrrsi
  | csrrci
  -- RV32M standard extension
  | mul
  | mulh
  | mulhsu
  | mulhu
  | div
  | divu
  | rem
  | remu
  -- RV32A standard extension
  | lrW
  | scW
  | amoswapW
  | amoaddW
  | amoxorW
  | amoandW
  | amoorW
  | amominW
  | amomaxW
  | amominuW
  | amomaxuW
  -- RV64I base integer set (addition to RV32I)
  | lwu
  | ld
  | sd
  | addiw
  | slliw
  | srliw
  | sraiw
  | addw
  | subw
  | sllw
  | srlw
  | sraw
  -- RV64M standard extension (addition to RV32M)
  | mulw
  | divw
  | divuw
  | remw
  | remuw
  -- RV64A standard extension (addition to RV32A)
  | lrD
  | scD
  | amoswapD
  | amoaddD
  | amoxorD
  | amoandD
  | amoorD
  | amominD
  | amomaxD
  | amominuD
  | amomaxuD
  -- RV32F standard extension
  | flw
  | fsw
  | fmaddS
  | fmsubS
  | fnmaddS
  | fnmsubS
  | faddS
  | fsubS
  | fmulS
  | fdivS
  | fsqrtS
  | fsgnjS
  | fsgnjnS
  | fsgnjxS
  | fminS
  | fmaxS
  | fcvtWS
  | fcvtWuS
  | fmvXW
  | feqS
  | fltS
  | fleS
  | fclassS
  | fcvtSW
  | fcvtSWu
  | fmvWX
  -- RV64F standard extension (addition to RV32F)
  | fcvtLS
  | fcvtLuS
  | fcvtSL
  | fcvtSLu
  -- RV32D standard extension
  | fld
  | fsd
  | fmaddD
  | fmsubD
  | fnmsubD
  | fnmaddD
  | faddD
  | fsubD
  | fmulD
  | fdivD
  | fsqrtD
  | fsgnjD
  | fsgnjnD
  | fsgnjxD
  | fminD
  | fmaxD
  | fcvtSD
  | fcvtDS
  | feqD
  | fltD
  | fleD
  | fclassD
  | fcvtWD
  | fcvtWuD
  | fcvtDW
  | fcvtDWu
  -- RV64D standard extension (addition to RV32D)
  | fcvtLD
  | fcvtLuD
  | fmvXD
  | fcvtDL
  | fcvtDLu
  | fmvDX
  -- privileged instructions
  | uret
  | sret
  | mret
  | wfi
  | sfenceVma
  -- custom
  | custom0
  | custom1
  | custom2
  | custom3
  deriving DecidableEq, Repr

namespace Mapping

/-- `X_MASK` and `X_ENCODING`. -/
structure Encoding where
  mask : BitVec 32
  bits : BitVec 32
  deriving DecidableEq, Repr

/-- The mask and encoding constants; `undef` has none, and the zero mask would
match every word. -/
def encoding : Mapping → Encoding
  | undef => ⟨0, 0⟩
  | lui => ⟨0x0000007f, 0x00000037⟩
  | auipc => ⟨0x0000007f, 0x00000017⟩
  | jal => ⟨0x0000007f, 0x0000006f⟩
  | jalr => ⟨0x0000707f, 0x00000067⟩
  | beq => ⟨0x0000707f, 0x00000063⟩
  | bne => ⟨0x0000707f, 0x00001063⟩
  | blt => ⟨0x0000707f, 0x00004063⟩
  | bge => ⟨0x0000707f, 0x00005063⟩
  | bltu => ⟨0x0000707f, 0x00006063⟩
  | bgeu => ⟨0x0000707f, 0x00007063⟩
  | lb => ⟨0x0000707f, 0x00000003⟩
  | lh => ⟨0x0000707f, 0x00001003⟩
  | lw => ⟨0x0000707f, 0x00002003⟩
  | lbu => ⟨0x0000707f, 0x00004003⟩
  | lhu => ⟨0x0000707f, 0x00005003⟩
  | sb => ⟨0x0000707f, 0x00000023⟩
  | sh => ⟨0x0000707f, 0x00001023⟩
  | sw => ⟨0x0000707f, 0x00002023⟩
  | addi => ⟨0x0000707f, 0x00000013⟩
  | slti => ⟨0x0000707f, 0x00002013⟩
  | sltiu => ⟨0x0000707f, 0x00003013⟩
  | xori => ⟨0x0000707f, 0x00004013⟩
  | ori => ⟨0x0000707f, 0x00006013⟩
  | andi => ⟨0x0000707f, 0x00007013⟩
  | slli => ⟨0xfc00707f, 0x00001013⟩
  | srli => ⟨0xfc00707f, 0x00005013⟩
  | srai => ⟨0xfc00707f, 0x40005013⟩
  | add => ⟨0xfe00707f, 0x00000033⟩
  | sub => ⟨0xfe00707f, 0x40000033⟩
  | sll => ⟨0xfe00707f, 0x00001033⟩
  | slt => ⟨0xfe00707f, 0x00002033⟩
  | sltu => ⟨0xfe00707f, 0x00003033⟩
  | xor => ⟨0xfe00707f, 0x00004033⟩
  | srl => ⟨0xfe00707f, 0x00005033⟩
  | sra => ⟨0xfe00707f, 0x40005033⟩
  | or => ⟨0xfe00707f, 0x00006033⟩
  | and => ⟨0xfe00707f, 0x00007033⟩
  | fence => ⟨0x0000707f, 0x0000000f⟩
  | ecall => ⟨0xffffffff, 0x00000073⟩
  | ebreak => ⟨0xffffffff, 0x00100073⟩
  | fenceI => ⟨0x0000707f, 0x0000100f⟩
  | csrrw => ⟨0x0000707f, 0x00001073⟩
  | csrrs => ⟨0x0000707f, 0x00002073⟩
  | csrrc => ⟨0x0000707f, 0x00003073⟩
  | csrrwi => ⟨0x0000707f, 0x00005073⟩
  | csrrsi => ⟨0x0000707f, 0x00006073⟩
  | csrrci => ⟨0x0000707f, 0x00007073⟩
  | mul => ⟨0xfe00707f, 0x02000033⟩
  | mulh => ⟨0xfe00707f, 0x02001033⟩
  | mulhsu => ⟨0xfe00707f, 0x02002033⟩
  | mulhu => ⟨0xfe00707f, 0x02003033⟩
  | div => ⟨0xfe00707f, 0x02004033⟩
  | divu => ⟨0xfe00707f, 0x02005033⟩
  | rem => ⟨0xfe00707f, 0x02006033⟩
  | remu => ⟨0xfe00707f, 0x02007033⟩
  | lrW => ⟨0xf9f0707f, 0x1000202f⟩
  | scW => ⟨0xf800707f, 0x1800202f⟩
  | amoswapW => ⟨0xf800707f, 0x0800202f⟩
  | amoaddW => ⟨0xf800707f, 0x0000202f⟩
  | amoxorW => ⟨0xf800707f, 0x2000202f⟩
  | amoandW => ⟨0xf800707f, 0x6000202f⟩
  | amoorW => ⟨0xf800707f, 0x4000202f⟩
  | amominW => ⟨0xf800707f, 0x8000202f⟩
  | amomaxW => ⟨0xf800707f, 0xa000202f⟩
  | amominuW => ⟨0xf800707f, 0xc000202f⟩
  | amomaxuW => ⟨0xf800707f, 0xe000202f⟩
  | lwu => ⟨0x0000707f, 0x00006003⟩
  | ld => ⟨0x0000707f, 0x00003003⟩
  | sd => ⟨0x0000707f, 0x00003023⟩
  | addiw => ⟨0x0000707f, 0x0000001b⟩
  | slliw => ⟨0xfe00707f, 0x0000101b⟩
  | srliw => ⟨0xfe00707f, 0x0000501b⟩
  | sraiw => ⟨0xfe00707f, 0x4000501b⟩
  | addw => ⟨0xfe00707f, 0x0000003b⟩
  | subw => ⟨0xfe00707f, 0x4000003b⟩
  | sllw => ⟨0xfe00707f, 0x0000103b⟩
  | srlw => ⟨0xfe00707f, 0x0000503b⟩
  | sraw => ⟨0xfe00707f, 0x4000503b⟩
  | mulw => ⟨0xfe00707f, 0x0200003b⟩
  | divw => ⟨0xfe00707f, 0x0200403b⟩
  | divuw => ⟨0xfe00707f, 0x0200503b⟩
  | remw => ⟨0xfe00707f, 0x0200603b⟩
  | remuw => ⟨0xfe00707f, 0x0200703b⟩
  | lrD => ⟨0xf9f0707f, 0x1000302f⟩
  | scD => ⟨0xf800707f, 0x1800302f⟩
  | amoswapD => ⟨0xf800707f, 0x0800302f⟩
  | amoaddD => ⟨0xf800707f, 0x0000302f⟩
  | amoxorD => ⟨0xf800707f, 0x2000302f⟩
  | amoandD => ⟨0xf800707f, 0x6000302f⟩
  | amoorD => ⟨0xf800707f, 0x4000302f⟩
  | amominD => ⟨0xf800707f, 0x8000302f⟩
  | amomaxD => ⟨0xf800707f, 0xa000302f⟩
  | amominuD => ⟨0xf800707f, 0xc000302f⟩
  | amomaxuD => ⟨0xf800707f, 0xe000302f⟩
  | flw => ⟨0x0000707f, 0x00002007⟩
  | fsw => ⟨0x0000707f, 0x00002027⟩
  | fmaddS => ⟨0x0600007f, 0x00000043⟩
  | fmsubS => ⟨0x0600007f, 0x00000047⟩
  | fnmaddS => ⟨0x0600007f, 0x0000004f⟩
  | fnmsubS => ⟨0x0600007f, 0x0000004b⟩
  | faddS => ⟨0xfe00007f, 0x00000053⟩
  | fsubS => ⟨0xfe00007f, 0x08000053⟩
  | fmulS => ⟨0xfe00007f, 0x10000053⟩
  | fdivS => ⟨0xfe00007f, 0x18000053⟩
  | fsqrtS => ⟨0xfff0007f, 0x58000053⟩
  | fsgnjS => ⟨0xfe00707f, 0x20000053⟩
  | fsgnjnS => ⟨0xfe00707f, 0x20001053⟩
  | fsgnjxS => ⟨0xfe00707f, 0x20002053⟩
  | fminS => ⟨0xfe00707f, 0x28000053⟩
  | fmaxS => ⟨0xfe00707f, 0x28001053⟩
  | fcvtWS => ⟨0xfff0007f, 0xc0000053⟩
  | fcvtWuS => ⟨0xfff0007f, 0xc0100053⟩
  | fmvXW => ⟨0xfff0707f, 0xe0000053⟩
  | feqS => ⟨0xfe00707f, 0xa0002053⟩
  | fltS => ⟨0xfe00707f, 0xa0001053⟩
  | fleS => ⟨0xfe00707f, 0xa0000053⟩
  | fclassS => ⟨0xfff0707f, 0xe0001053⟩
  | fcvtSW => ⟨0xfff0007f, 0xd0000053⟩
  | fcvtSWu => ⟨0xfff0007f, 0xd0100053⟩
  | fmvWX => ⟨0xfff0707f, 0xf0000053⟩
  | fcvtLS => ⟨0xfff0007f, 0xc0200053⟩
  | fcvtLuS => ⟨0xfff0007f, 0xc0300053⟩
  | fcvtSL => ⟨0xfff0007f, 0xd0200053⟩
  | fcvtSLu => ⟨0xfff0007f, 0xd0300053⟩
  | fld => ⟨0x0000707f, 0x00003007⟩
  | fsd => ⟨0x0000707f, 0x00003027⟩
  | fmaddD => ⟨0x0600007f, 0x02000043⟩
  | fmsubD => ⟨0x0600007f, 0x02000047⟩
  | fnmsubD => ⟨0x0600007f, 0x0200004b⟩
  | fnmaddD => ⟨0x0600007f, 0x0200004f⟩
  | faddD => ⟨0xfe00007f, 0x02000053⟩
  | fsubD => ⟨0xfe00007f, 0x0a000053⟩
  | fmulD => ⟨0xfe00007f, 0x12000053⟩
  | fdivD => ⟨0xfe00007f, 0x1a000053⟩
  | fsqrtD => ⟨0xfff0007f, 0x5a000053⟩
  | fsgnjD => ⟨0xfe00707f, 0x22000053⟩
  | fsgnjnD => ⟨0xfe00707f, 0x22001053⟩
  | fsgnjxD => ⟨0xfe00707f, 0x22002053⟩
  | fminD => ⟨0xfe00707f, 0x2a000053⟩
  | fmaxD => ⟨0xfe00707f, 0x2a001053⟩
  | fcvtSD => ⟨0xfff0007f, 0x40100053⟩
  | fcvtDS => ⟨0xfff0007f, 0x42000053⟩
  | feqD => ⟨0xfe00707f, 0xa2002053⟩
  | fltD => ⟨0xfe00707f, 0xa2001053⟩
  | fleD => ⟨0xfe00707f, 0xa2000053⟩
  | fclassD => ⟨0xfff0707f, 0xe2001053⟩
  | fcvtWD => ⟨0xfff0007f, 0xc2000053⟩
  | fcvtWuD => ⟨0xfff0007f, 0xc2100053⟩
  | fcvtDW => ⟨0xfff0007f, 0xd2000053⟩
  | fcvtDWu => ⟨0xfff0007f, 0xd2100053⟩
  | fcvtLD => ⟨0xfff0007f, 0xc2200053⟩
  | fcvtLuD => ⟨0xfff0007f, 0xc2300053⟩
  | fmvXD => ⟨0xfff0707f, 0xe2000053⟩
  | fcvtDL => ⟨0xfff0007f, 0xd2200053⟩
  | fcvtDLu => ⟨0xfff0007f, 0xd2300053⟩
  | fmvDX => ⟨0xfff0707f, 0xf2000053⟩
  | uret => ⟨0xffffffff, 0x00200073⟩
  | sret => ⟨0xffffffff, 0x10200073⟩
  | mret => ⟨0xffffffff, 0x30200073⟩
  | wfi => ⟨0xffffffff, 0x10500073⟩
  | sfenceVma => ⟨0xfe007fff, 0x12000073⟩
  | custom0 => ⟨0x00000000, 0x00000000⟩
  | custom1 => ⟨0x00000001, 0x00000001⟩
  | custom2 => ⟨0x00000002, 0x00000002⟩
  | custom3 => ⟨0x00000003, 0x00000003⟩

/-- `SLLI_32_MASK` and `SLLI_32_ENCODING`. -/
def slli32 : Encoding := ⟨0xfe00707f, 0x00001013⟩

/-- `SRLI_32_MASK` and `SRLI_32_ENCODING`. -/
def srli32 : Encoding := ⟨0xfe00707f, 0x00005013⟩

/-- `SRAI_32_MASK` and `SRAI_32_ENCODING`. -/
def srai32 : Encoding := ⟨0xfe00707f, 0x40005013⟩

/-- The word carries the encoding. -/
def Encoding.Matches (encoding : Encoding) (data : BitVec 32) : Prop :=
  data &&& encoding.mask = encoding.bits

instance (encoding : Encoding) (data : BitVec 32) :
    Decidable (encoding.Matches data) :=
  inferInstanceAs (Decidable (_ = _))

end Mapping

end RiscvVp
