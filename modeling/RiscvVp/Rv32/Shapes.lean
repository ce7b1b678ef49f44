import RiscvVp.Rv32.Execute

/-!
# The shapes of the instruction bodies

The switch has some hundred and fifty cases and about forty different bodies;
the opcodes that share a body differ in a function, a width or a format.  A
property of a body that is known for every shape is known for every case:
`execute_of_shapes` goes through the switch once.
-/

namespace RiscvVp

namespace Rv32

open Interaction

/-! ## Classes of opcodes -/

/-- The mode a return instruction returns from. -/
def returnMode : Mapping → Option PrivilegeLevel
  | .uret => some userMode
  | .sret => some supervisorMode
  | .mret => some machineMode
  | _ => none

/-- The CSR instructions. -/
def isCsr : Mapping → Bool
  | .csrrw | .csrrs | .csrrc | .csrrwi | .csrrsi | .csrrci => true
  | _ => false

/-- The conditional branches. -/
def isBranch : Mapping → Bool
  | .beq | .bne | .blt | .bge | .bltu | .bgeu => true
  | _ => false

/-- The instructions that assign the program counter. -/
def isTransfer (op : Mapping) : Bool :=
  isBranch op || op == .jal || op == .jalr

/-- The loads of an integer register. -/
def isLoad : Mapping → Bool
  | .lb | .lh | .lw | .lbu | .lhu => true
  | _ => false

/-- The stores of an integer register. -/
def isStore : Mapping → Bool
  | .sb | .sh | .sw => true
  | _ => false

/-- The atomic read-modify-write instructions. -/
def isAmo : Mapping → Bool
  | .amoswapW | .amoaddW | .amoxorW | .amoandW | .amoorW | .amominW
  | .amomaxW | .amominuW | .amomaxuW => true
  | _ => false

/-- The instructions that work on the floating-point registers. -/
def isFloat : Mapping → Bool
  | .flw | .fsw | .fmaddS | .fmsubS | .fnmaddS | .fnmsubS | .faddS | .fsubS
  | .fmulS | .fdivS | .fsqrtS | .fsgnjS | .fsgnjnS | .fsgnjxS | .fminS
  | .fmaxS | .fcvtWS | .fcvtWuS | .fmvXW | .feqS | .fltS | .fleS | .fclassS
  | .fcvtSW | .fcvtSWu | .fmvWX | .fld | .fsd | .fmaddD | .fmsubD | .fnmsubD
  | .fnmaddD | .faddD | .fsubD | .fmulD | .fdivD | .fsqrtD | .fsgnjD
  | .fsgnjnD | .fsgnjxD | .fminD | .fmaxD | .fcvtSD | .fcvtDS | .feqD
  | .fltD | .fleD | .fclassD | .fcvtWD | .fcvtWuD | .fcvtDW | .fcvtDWu => true
  | _ => false

/-- The opcodes with a case in the switch. -/
def hasCase : Mapping → Bool
  | .custom0 | .custom1 | .custom2 => false
  | _ => true

/-! ## Properties of every shape -/

/-- A property that the body of every shape has, whatever its parameters. -/
structure Shapes (cfg : Config) (instr : Instruction)
    (holds : Mapping → Body Unit → Prop) : Prop where
  raiseIllegal {op} : holds op (Body.raiseIllegal instr)
  unary {op} (f) : holds op (Exec.unary cfg instr f)
  binary {op} (f) : holds op (Exec.binary cfg instr f)
  branch {op} (condition) (member : isBranch op = true) :
    holds op (Exec.branch cfg instr condition)
  lui {op} : holds op (Exec.lui cfg instr)
  auipc {op} : holds op (Exec.auipc cfg instr)
  jal : holds .jal (Exec.jal cfg instr)
  jalr : holds .jalr (Exec.jalr cfg instr)
  multiply {op} (f) : holds op (Exec.multiply cfg instr f)
  mulhsu {op} : holds op (Exec.mulhsu cfg instr)
  divide {op} (f : BitVec 32 → BitVec 32 → BitVec 32) :
    holds op (Exec.divide cfg instr fun a b => some (f a b))
  load {op} (bytes) (convert : BitVec (8 * bytes) → BitVec 32) (latency)
    (positive) (member : isLoad op = true) :
    holds op
      (Exec.load cfg instr bytes
        (fun addr => Exec.loadData bytes addr >>= fun value =>
          pure (convert value))
        latency positive)
  store {op} (bytes) (member : isStore op = true) :
    holds op (Exec.store cfg instr bytes)
  lrW : holds .lrW (Exec.lrW cfg instr)
  scW : holds .scW (Exec.scW cfg instr)
  amo {op} (operation) (member : isAmo op = true) :
    holds op (Exec.amo instr operation)
  csrrw : holds .csrrw (Exec.csrrw cfg instr)
  csrModify {op} (f) (member : isCsr op = true) :
    holds op (Exec.csrModify cfg instr f)
  csrrwi : holds .csrrwi (Exec.csrrwi cfg instr)
  csrModifyImmediate {op} (f) (member : isCsr op = true) :
    holds op (Exec.csrModifyImmediate cfg instr f)
  fence {op} : holds op Exec.fence
  ecall : holds .ecall (Exec.ecall cfg)
  ebreak : holds .ebreak Exec.ebreak
  wfi : holds .wfi (Exec.wfi instr)
  sfenceVma : holds .sfenceVma (Exec.sfenceVma instr)
  uret : holds .uret (Exec.uret instr)
  sret : holds .sret (Exec.sret instr)
  mret : holds .mret Exec.mret
  custom3 {op} : holds op (Exec.custom3 cfg instr)
  floatBinary {op} (format) (f) (member : isFloat op = true) :
    holds op (Exec.floatBinary instr format f)
  floatUnary {op} (format) (f) (member : isFloat op = true) :
    holds op (Exec.floatUnary instr format f)
  floatFused {op} (format) (f) (member : isFloat op = true) :
    holds op (Exec.floatFused instr format f)
  floatToInteger {op} (format) (f) (member : isFloat op = true) :
    holds op (Exec.floatToInteger instr format f)
  integerToFloat {op} (format) (f) (member : isFloat op = true) :
    holds op (Exec.integerToFloat instr format f)
  fcvtSD : holds .fcvtSD (Exec.fcvtSD cfg instr)
  fcvtDS : holds .fcvtDS (Exec.fcvtDS cfg instr)
  floatSelect {op} (format) (lessQuiet equal isNegative isNaN defaultNaN
    greatest) (member : isFloat op = true) :
    holds op
      (Exec.floatSelect instr format lessQuiet equal isNegative isNaN
        defaultNaN greatest)
  signInject {op} (format) (f) (member : isFloat op = true) :
    holds op (Exec.signInject instr format f)
  floatCompare {op} (format) (f) (member : isFloat op = true) :
    holds op (Exec.floatCompare instr format f)
  floatClassify {op} (format) (f) (member : isFloat op = true) :
    holds op (Exec.floatClassify instr format f)
  flw : holds .flw (Exec.flw instr)
  fsw : holds .fsw (Exec.fsw instr)
  fld : holds .fld (Exec.fld instr)
  fsd : holds .fsd (Exec.fsd instr)
  fmvWX : holds .fmvWX (Exec.fmvWX instr)
  fmvXW : holds .fmvXW (Exec.fmvXW instr)

open Exec in
/-- Every case of the switch has one of the shapes. -/
theorem execute_of_shapes {cfg : Config} {instr : Instruction}
    {holds : Mapping → Body Unit → Prop} (shapes : Shapes cfg instr holds) :
    ∀ {op : Mapping}, hasCase op = true → holds op (execute cfg instr op)
  | .undef, _ => shapes.raiseIllegal
  | .addi, _ | .slti, _ | .sltiu, _ | .xori, _ | .ori, _ | .andi, _
  | .slli, _ | .srli, _ | .srai, _ => shapes.unary _
  | .add, _ | .sub, _ | .sll, _ | .slt, _ | .sltu, _ | .xor, _ | .srl, _
  | .sra, _ | .or, _ | .and, _ => shapes.binary _
  | .beq, _ | .bne, _ | .blt, _ | .bge, _ | .bltu, _ | .bgeu, _ =>
      shapes.branch _ rfl
  | .lui, _ => shapes.lui
  | .auipc, _ => shapes.auipc
  | .jal, _ => shapes.jal
  | .jalr, _ => shapes.jalr
  | .mul, _ | .mulh, _ | .mulhu, _ => shapes.multiply _
  | .mulhsu, _ => shapes.mulhsu
  | .div, _ =>
      (congrArg (holds .div) (div_eq cfg instr)).mpr (shapes.divide _)
  | .divu, _ =>
      (congrArg (holds .divu) (divu_eq cfg instr)).mpr (shapes.divide _)
  | .rem, _ =>
      (congrArg (holds .rem) (rem_eq cfg instr)).mpr (shapes.divide _)
  | .remu, _ =>
      (congrArg (holds .remu) (remu_eq cfg instr)).mpr (shapes.divide _)
  | .lb, _ | .lh, _ | .lw, _ =>
      shapes.load _ (fun value => value.signExtend 32) _ _ rfl
  | .lbu, _ | .lhu, _ =>
      shapes.load _ (fun value => value.setWidth 32) _ _ rfl
  | .sb, _ | .sh, _ | .sw, _ => shapes.store _ rfl
  | .lrW, _ => shapes.lrW
  | .scW, _ => shapes.scW
  | .amoswapW, _ | .amoaddW, _ | .amoxorW, _ | .amoandW, _ | .amoorW, _
  | .amominW, _ | .amomaxW, _ | .amominuW, _ | .amomaxuW, _ =>
      shapes.amo _ rfl
  | .csrrw, _ => shapes.csrrw
  | .csrrs, _ | .csrrc, _ => shapes.csrModify _ rfl
  | .csrrwi, _ => shapes.csrrwi
  | .csrrsi, _ => shapes.csrModifyImmediate _ rfl
  | .csrrci, _ =>
      shapes.csrModifyImmediate (fun csr value => csr &&& ~~~value) rfl
  | .fence, _ | .fenceI, _ => shapes.fence
  | .ecall, _ => shapes.ecall
  | .ebreak, _ => shapes.ebreak
  | .wfi, _ => shapes.wfi
  | .sfenceVma, _ => shapes.sfenceVma
  | .uret, _ => shapes.uret
  | .sret, _ => shapes.sret
  | .mret, _ => shapes.mret
  | .custom3, _ => shapes.custom3
  | .flw, _ => shapes.flw
  | .fsw, _ => shapes.fsw
  | .fld, _ => shapes.fld
  | .fsd, _ => shapes.fsd
  | .faddS, _ | .fsubS, _ | .fmulS, _ | .fdivS, _ =>
      shapes.floatBinary single _ rfl
  | .faddD, _ | .fsubD, _ | .fmulD, _ | .fdivD, _ =>
      shapes.floatBinary double _ rfl
  | .fsqrtS, _ => shapes.floatUnary single _ rfl
  | .fsqrtD, _ => shapes.floatUnary double _ rfl
  | .fmaddS, _ | .fmsubS, _ | .fnmaddS, _ | .fnmsubS, _ =>
      shapes.floatFused single _ rfl
  | .fmaddD, _ | .fmsubD, _ | .fnmaddD, _ | .fnmsubD, _ =>
      shapes.floatFused double _ rfl
  | .fcvtWS, _ | .fcvtWuS, _ => shapes.floatToInteger single _ rfl
  | .fcvtWD, _ | .fcvtWuD, _ => shapes.floatToInteger double _ rfl
  | .fcvtSW, _ | .fcvtSWu, _ => shapes.integerToFloat single _ rfl
  | .fcvtDW, _ | .fcvtDWu, _ => shapes.integerToFloat double _ rfl
  | .fcvtSD, _ => shapes.fcvtSD
  | .fcvtDS, _ => shapes.fcvtDS
  | .fminS, _ | .fmaxS, _ => shapes.floatSelect single _ _ _ _ _ _ rfl
  | .fminD, _ | .fmaxD, _ => shapes.floatSelect double _ _ _ _ _ _ rfl
  | .fsgnjS, _ | .fsgnjnS, _ | .fsgnjxS, _ => shapes.signInject single _ rfl
  | .fsgnjD, _ | .fsgnjnD, _ | .fsgnjxD, _ => shapes.signInject double _ rfl
  | .feqS, _ | .fltS, _ | .fleS, _ => shapes.floatCompare single _ rfl
  | .feqD, _ | .fltD, _ | .fleD, _ => shapes.floatCompare double _ rfl
  | .fclassS, _ => shapes.floatClassify single _ rfl
  | .fclassD, _ => shapes.floatClassify double _ rfl
  | .fmvWX, _ => shapes.fmvWX
  | .fmvXW, _ => shapes.fmvXW
  | .lwu, _ | .ld, _ | .sd, _ | .addiw, _ | .slliw, _ | .srliw, _
  | .sraiw, _ | .addw, _ | .subw, _ | .sllw, _ | .srlw, _ | .sraw, _
  | .mulw, _ | .divw, _ | .divuw, _ | .remw, _ | .remuw, _ | .lrD, _
  | .scD, _ | .amoswapD, _ | .amoaddD, _ | .amoxorD, _ | .amoandD, _
  | .amoorD, _ | .amominD, _ | .amomaxD, _ | .amominuD, _ | .amomaxuD, _
  | .fcvtLS, _ | .fcvtLuS, _ | .fcvtSL, _ | .fcvtSLu, _ | .fcvtLD, _
  | .fcvtLuD, _ | .fmvXD, _ | .fcvtDL, _ | .fcvtDLu, _ | .fmvDX, _ =>
      shapes.raiseIllegal

end Rv32

end RiscvVp
