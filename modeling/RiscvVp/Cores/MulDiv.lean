import RiscvVp.Rv32.TimingRun
import RiscvVp.Rv32.Transfer
import RiscvVp.Rv64.Integer

/-!
# Multiplication and division on both cores

`MUL` and one of the other products are the two halves of an exact product,
and the quotients and remainders are those of the instruction set.  An
instruction that completes has not met a division that the host leaves
undefined.
-/

namespace RiscvVp

namespace Cores

open Bits Interaction
open Rv32 (HiFive1PipelineTiming PipelineEvent perform)
open Rv32.Body (act)

/-! ## The instructions -/

inductive MulDiv : Type
  | mul
  | mulh
  | mulhsu
  | mulhu
  | div
  | divu
  | rem
  | remu
  deriving DecidableEq

/-- The instructions on words, which the 64-bit core has. -/
inductive MulDivW : Type
  | mulw
  | divw
  | divuw
  | remw
  | remuw
  deriving DecidableEq

namespace MulDiv

def mapping : MulDiv → Mapping
  | .mul => .mul
  | .mulh => .mulh
  | .mulhsu => .mulhsu
  | .mulhu => .mulhu
  | .div => .div
  | .divu => .divu
  | .rem => .rem
  | .remu => .remu

/-- The body of the instruction on the 64-bit core. -/
def body64 (instr : Instruction) : MulDiv → Rv64.HartM Unit
  | .mul => Rv64.Exec.mul instr
  | .mulh => Rv64.Exec.mulh instr
  | .mulhsu => Rv64.Exec.mulhsu instr
  | .mulhu => Rv64.Exec.mulhu instr
  | .div => Rv64.Exec.div instr
  | .divu => Rv64.Exec.divu instr
  | .rem => Rv64.Exec.rem instr
  | .remu => Rv64.Exec.remu instr

/-- What the instruction makes of its operands. -/
def value {width : ℕ} (op : MulDiv) (a b : BitVec width) : BitVec width :=
  match op with
  | .mul => a * b
  | .mulh => highHalf (signedProduct a b)
  | .mulhsu => highHalf (mixedProduct a b)
  | .mulhu => highHalf (unsignedProduct a b)
  | .div => signedQuotient a b
  | .divu => unsignedQuotient a b
  | .rem => signedRemainder a b
  | .remu => unsignedRemainder a b

end MulDiv

namespace MulDivW

def body64 (instr : Instruction) : MulDivW → Rv64.HartM Unit
  | .mulw => Rv64.Exec.mulw instr
  | .divw => Rv64.Exec.divw instr
  | .divuw => Rv64.Exec.divuw instr
  | .remw => Rv64.Exec.remw instr
  | .remuw => Rv64.Exec.remuw instr

/-- What the instruction makes of the words of its operands. -/
def value (op : MulDivW) (a b : BitVec 32) : BitVec 32 :=
  match op with
  | .mulw => a * b
  | .divw => signedQuotient a b
  | .divuw => unsignedQuotient a b
  | .remw => signedRemainder a b
  | .remuw => unsignedRemainder a b

end MulDivW

/-! ## What they are for -/

/-- The products are exact, and so are the divisions. -/
structure Exact {width : ℕ} (a b : BitVec width)
    (value : MulDiv → BitVec width) : Prop where
  signedProduct : (value .mulh ++ value .mul).toInt = a.toInt * b.toInt
  unsignedProduct : (value .mulhu ++ value .mul).toNat = a.toNat * b.toNat
  mixedProduct : (value .mulhsu ++ value .mul).toInt = a.toInt * b.toNat
  signedDivision : SignedDivision a b (value .div) (value .rem)
  unsignedDivision : UnsignedDivision a b (value .divu) (value .remu)

structure ExactW (a b : BitVec 32) (value : MulDivW → BitVec 32) :
    Prop where
  /-- the low half of the product -/
  product : (value .mulw).toInt = (a.toInt * b.toInt).bmod (2 ^ 32)
  signedDivision : SignedDivision a b (value .divw) (value .remw)
  unsignedDivision : UnsignedDivision a b (value .divuw) (value .remuw)

theorem exact_value {width : ℕ} (a b : BitVec width) :
    Exact a b (fun op => op.value a b) where
  signedProduct :=
    (congrArg BitVec.toInt (highHalf_signedProduct_append a b)).trans
      (toInt_signedProduct a b)
  unsignedProduct :=
    (congrArg BitVec.toNat (highHalf_unsignedProduct_append a b)).trans
      (toNat_unsignedProduct a b)
  mixedProduct :=
    (congrArg BitVec.toInt (highHalf_mixedProduct_append a b)).trans
      (toInt_mixedProduct a b)
  signedDivision := signedDivision a b
  unsignedDivision := unsignedDivision a b

theorem exact_valueW (a b : BitVec 32) :
    ExactW a b (fun op => op.value a b) where
  product := BitVec.toInt_mul a b
  signedDivision := signedDivision a b
  unsignedDivision := unsignedDivision a b

/-! ## The cores -/

/-- A hart of either core. -/
inductive IntegerCore : Type
  | rv32 (cfg : Rv32.Config) (hart : Rv32.Hart)
  | rv64 (hart : Rv64.Hart)

namespace IntegerCore

abbrev xlen : IntegerCore → ℕ
  | .rv32 _ _ => 32
  | .rv64 _ => 64

def reg : (core : IntegerCore) → BitVec 5 → BitVec core.xlen
  | .rv32 _ hart => hart.regs
  | .rv64 hart => hart.regs

/-- No check refuses the instruction. -/
def Enabled : IntegerCore → Prop
  | .rv32 _ hart =>
      Rv32.Csr.Misa.has (hart.csrs .misa) Rv32.Csr.Misa.m = true
  | .rv64 _ => True

/-- The destination register after the instruction, if it completes. -/
def result (instr : Instruction) (op : MulDiv) :
    (core : IntegerCore) → Option (BitVec core.xlen)
  | .rv32 cfg hart =>
      match Machine.answering (perform cfg)
        (Rv32.execute cfg instr op.mapping) hart with
      | .ret (.done () after) => some (after.regs instr.rd)
      | _ => none
  | .rv64 hart =>
      match op.body64 instr hart with
      | .ret (.done () after) => some (after.regs instr.rd)
      | _ => none

end IntegerCore

/-- The destination register after an instruction on words. -/
def resultW (instr : Instruction) (op : MulDivW) (hart : Rv64.Hart) :
    Option (BitVec 64) :=
  match op.body64 instr hart with
  | .ret (.done () after) => some (after.regs instr.rd)
  | _ => none

/-! ## The 64-bit core -/

section Run64

variable (instr : Instruction) (hart : Rv64.Hart)

theorem multiply64 (f : BitVec 64 → BitVec 64 → BitVec 64) :
    Rv64.Exec.multiply instr f hart = .ret (.done ()
      (hart.setReg instr.rd (f (hart.regs instr.rs1)
        (hart.regs instr.rs2)))) :=
  rfl

theorem divide64 (f : BitVec 64 → BitVec 64 → BitVec 64) :
    Rv64.Exec.divide instr (fun a b => some (f a b)) hart = .ret (.done ()
      (hart.setReg instr.rd (f (hart.regs instr.rs1)
        (hart.regs instr.rs2)))) :=
  rfl

/-- The arithmetic shift leaves the high half. -/
theorem highWord64_eq (product : BitVec (64 + 64)) :
    Rv64.Exec.highWord product = highHalf product := by
  apply BitVec.eq_of_getLsbD_eq
  intro index below
  have upper : 64 + index < 128 := by omega
  simp [Rv64.Exec.highWord, highHalf, BitVec.getLsbD_sshiftRight, below,
    upper]
  omega

theorem body64_eq_mulDiv (op : MulDiv) :
    op.body64 instr hart = .ret (.done () (hart.setReg instr.rd
      (op.value (hart.regs instr.rs1) (hart.regs instr.rs2)))) := by
  cases op with
  | mul =>
      have low := lowHalf_signedProduct (hart.regs instr.rs1)
        (hart.regs instr.rs2)
      rw [MulDiv.value, ← low]
      exact multiply64 instr hart _
  | mulh =>
      rw [MulDiv.value, ← highWord64_eq]
      exact multiply64 instr hart _
  | mulhsu =>
      rw [MulDiv.value, ← highWord64_eq]
      exact multiply64 instr hart _
  | mulhu =>
      rw [MulDiv.value, ← highWord64_eq]
      exact multiply64 instr hart _
  | div =>
      rw [MulDiv.body64, Rv64.Exec.div_eq]
      exact divide64 instr hart _
  | divu =>
      rw [MulDiv.body64, Rv64.Exec.divu_eq]
      exact divide64 instr hart _
  | rem =>
      rw [MulDiv.body64, Rv64.Exec.rem_eq]
      exact divide64 instr hart _
  | remu =>
      rw [MulDiv.body64, Rv64.Exec.remu_eq]
      exact divide64 instr hart _

theorem body64_eq_mulDivW (op : MulDivW) :
    op.body64 instr hart = .ret (.done () (hart.setReg instr.rd
      (Rv64.Exec.extended op.value (hart.regs instr.rs1)
        (hart.regs instr.rs2)))) := by
  cases op with
  | mulw =>
      have word := BitVec.setWidth_mul (hart.regs instr.rs1)
        (hart.regs instr.rs2) (show 32 ≤ 64 by decide)
      rw [Rv64.Exec.extended, MulDivW.value, ← word]
      exact multiply64 instr hart _
  | divw =>
      rw [MulDivW.body64, Rv64.Exec.divw_eq]
      exact divide64 instr hart _
  | divuw =>
      rw [MulDivW.body64, Rv64.Exec.divuw_eq]
      exact divide64 instr hart _
  | remw =>
      rw [MulDivW.body64, Rv64.Exec.remw_eq]
      exact divide64 instr hart _
  | remuw =>
      rw [MulDivW.body64, Rv64.Exec.remuw_eq]
      exact divide64 instr hart _

theorem regs_setReg64 (regIdx : BitVec 5) (value : BitVec 64) :
    (hart.setReg regIdx value).regs regIdx = value :=
  if_pos rfl

end Run64

/-! ## The 32-bit core -/

section Run32

variable (cfg : Rv32.Config) (instr : Instruction)

/-- The call of the timing model that follows a write: its assertion holds,
for the write has waited for the register. -/
theorem write_occupies (hart : Rv32.Hart) (value : BitVec 32)
    {event : PipelineEvent} (names : event.result = some instr.rd) :
    ∃ after, Machine.answering (perform cfg)
        (Rv32.Body.write instr.rd value >>= fun _ => act (.pipeline event))
        hart = .ret (.done () after) ∧ after.regs instr.rd = value := by
  have waited := HiFive1PipelineTiming.notPending_accessRegister instr.rd
    hart.pipeline
  have succeeds : (event.apply
      (hart.pipeline.accessRegister instr.rd)).isSome := by
    apply PipelineEvent.isSome_apply
    intro rd named
    rw [names] at named
    cases named
    exact waited
  obtain ⟨pipeline, applied⟩ := Option.isSome_iff_exists.1 succeeds
  let written := Rv32.Hart.setReg
    { hart with pipeline := hart.pipeline.accessRegister instr.rd }
    instr.rd value
  have advances : event.apply written.pipeline = some pipeline := applied
  refine ⟨{ written with pipeline := pipeline }, ?_, if_pos rfl⟩
  rw [Machine.answering_bind, Machine.bind_apply, Rv32.write_apply,
    Program.ret_bind, Machine.andThen_done]
  change Machine.answering (perform cfg) (act (.pipeline event)) written = _
  simp [act, Program.ask, perform, Rv32.advancePipeline, advances]

section Enabled

variable {hart : Rv32.Hart}
  (present : Rv32.Csr.Misa.has (hart.csrs .misa) Rv32.Csr.Misa.m = true)

include present

/-- The timing build waits for the operands. -/
theorem read_operands (rest : BitVec 32 → BitVec 32 → Rv32.Body Unit) :
    Machine.answering (perform cfg) (do
        Rv32.Body.requireIsa instr Rv32.Csr.Misa.m
        let a ← Rv32.Body.read instr.rs1
        let b ← Rv32.Body.read instr.rs2
        rest a b) hart =
      Machine.answering (perform cfg)
        (rest (hart.regs instr.rs1) (hart.regs instr.rs2))
        { hart with
          pipeline := (hart.pipeline.accessRegister instr.rs1).accessRegister
            instr.rs2 } := by
  rw [Machine.answering_bind, Machine.bind_apply,
    Rv32.requireIsa_apply cfg hart instr present, Program.ret_bind,
    Machine.andThen_done, Machine.answering_bind, Machine.bind_apply,
    Rv32.read_apply, Program.ret_bind, Machine.andThen_done,
    Machine.answering_bind, Machine.bind_apply, Rv32.read_apply,
    Program.ret_bind, Machine.andThen_done]

/-- The other build does not wait. -/
theorem reg_operands (rest : BitVec 32 → BitVec 32 → Rv32.Body Unit) :
    Machine.answering (perform cfg) (do
        Rv32.Body.requireIsa instr Rv32.Csr.Misa.m
        let a ← Rv32.Body.reg instr.rs1
        let b ← Rv32.Body.reg instr.rs2
        rest a b) hart =
      Machine.answering (perform cfg)
        (rest (hart.regs instr.rs1) (hart.regs instr.rs2)) hart := by
  rw [Machine.answering_bind, Machine.bind_apply,
    Rv32.requireIsa_apply cfg hart instr present, Program.ret_bind,
    Machine.andThen_done, Machine.answering_bind, Machine.bind_apply,
    Rv32.reg_apply, Program.ret_bind, Machine.andThen_done,
    Machine.answering_bind, Machine.bind_apply, Rv32.reg_apply,
    Program.ret_bind, Machine.andThen_done]

theorem multiply32 (f : BitVec 32 → BitVec 32 → BitVec 32) :
    ∃ after, Machine.answering (perform cfg)
        (Rv32.Exec.multiply cfg instr f) hart = .ret (.done () after) ∧
      after.regs instr.rd =
        f (hart.regs instr.rs1) (hart.regs instr.rs2) := by
  rw [Rv32.Exec.multiply]
  split
  · rw [read_operands cfg instr present]
    exact write_occupies cfg instr _ _ rfl
  · rw [reg_operands cfg instr present]
    exact ⟨_, rfl, if_pos rfl⟩

theorem mulhsu32 :
    ∃ after, Machine.answering (perform cfg)
        (Rv32.Exec.mulhsu cfg instr) hart = .ret (.done () after) ∧
      after.regs instr.rd = Rv32.Exec.highWord
        ((hart.regs instr.rs1).signExtend 64 *
          (hart.regs instr.rs2).setWidth 64) := by
  rw [Rv32.Exec.mulhsu]
  split
  · rw [read_operands cfg instr present]
    exact write_occupies cfg instr _ _ rfl
  · rw [reg_operands cfg instr present]
    exact ⟨_, rfl, if_pos rfl⟩

theorem divide32 (f : BitVec 32 → BitVec 32 → BitVec 32) :
    ∃ after, Machine.answering (perform cfg)
        (Rv32.Exec.divide cfg instr fun a b => some (f a b)) hart =
          .ret (.done () after) ∧
      after.regs instr.rd =
        f (hart.regs instr.rs1) (hart.regs instr.rs2) := by
  rw [Rv32.Exec.divide]
  split
  · rw [read_operands cfg instr present]
    exact write_occupies cfg instr _ _ rfl
  · rw [reg_operands cfg instr present]
    exact ⟨_, rfl, if_pos rfl⟩

end Enabled

/-- The mask and the shift leave the high half. -/
theorem highWord32_eq (product : BitVec (32 + 32)) :
    Rv32.Exec.highWord product = highHalf product := by
  have mask : ∀ index < 32,
      (0xFFFFFFFF00000000#64).getLsbD (32 + index) = true := by
    decide
  apply BitVec.eq_of_getLsbD_eq
  intro index below
  simp [Rv32.Exec.highWord, highHalf, below, mask index below]

theorem lowWord32_eq (product : BitVec (32 + 32)) :
    (product &&& 0xFFFFFFFF).setWidth 32 = lowHalf product := by
  have mask : (0xFFFFFFFF#64).setWidth 32 = BitVec.allOnes 32 := by
    decide
  exact (BitVec.setWidth_and).trans
    ((congrArg _ mask).trans BitVec.and_allOnes)

theorem execute_mulDiv {hart : Rv32.Hart}
    (present : Rv32.Csr.Misa.has (hart.csrs .misa) Rv32.Csr.Misa.m = true)
    (op : MulDiv) :
    ∃ after, Machine.answering (perform cfg)
        (Rv32.execute cfg instr op.mapping) hart = .ret (.done () after) ∧
      after.regs instr.rd =
        op.value (hart.regs instr.rs1) (hart.regs instr.rs2) := by
  cases op with
  | mul =>
      rw [MulDiv.value, ← lowHalf_signedProduct, ← lowWord32_eq]
      exact multiply32 cfg instr present _
  | mulh =>
      rw [MulDiv.value, ← highWord32_eq]
      exact multiply32 cfg instr present _
  | mulhsu =>
      rw [MulDiv.value, ← highWord32_eq]
      exact mulhsu32 cfg instr present
  | mulhu =>
      rw [MulDiv.value, ← highWord32_eq]
      exact multiply32 cfg instr present _
  | div =>
      have same : Rv32.execute cfg instr MulDiv.div.mapping = _ :=
        Rv32.Exec.div_eq cfg instr
      rw [same]
      exact divide32 cfg instr present _
  | divu =>
      have same : Rv32.execute cfg instr MulDiv.divu.mapping = _ :=
        Rv32.Exec.divu_eq cfg instr
      rw [same]
      exact divide32 cfg instr present _
  | rem =>
      have same : Rv32.execute cfg instr MulDiv.rem.mapping = _ :=
        Rv32.Exec.rem_eq cfg instr
      rw [same]
      exact divide32 cfg instr present _
  | remu =>
      have same : Rv32.execute cfg instr MulDiv.remu.mapping = _ :=
        Rv32.Exec.remu_eq cfg instr
      rw [same]
      exact divide32 cfg instr present _

end Run32

/-! ## Both cores -/

/-- An enabled instruction completes with its value. -/
theorem result_eq_value (instr : Instruction) (op : MulDiv)
    {core : IntegerCore} (enabled : core.Enabled) :
    core.result instr op =
      some (op.value (core.reg instr.rs1) (core.reg instr.rs2)) := by
  cases core with
  | rv32 cfg hart =>
      obtain ⟨after, done, written⟩ := execute_mulDiv cfg instr enabled op
      rw [IntegerCore.result, done]
      exact congrArg some written
  | rv64 hart =>
      rw [IntegerCore.result, body64_eq_mulDiv]
      exact congrArg some (regs_setReg64 hart _ _)

theorem resultW_eq_value (instr : Instruction) (op : MulDivW)
    (hart : Rv64.Hart) :
    resultW instr op hart =
      some (Rv64.Exec.extended op.value (hart.regs instr.rs1)
        (hart.regs instr.rs2)) := by
  rw [resultW, body64_eq_mulDivW]
  exact congrArg some (regs_setReg64 hart _ _)

/-- Every instruction of an enabled hart completes, and what it computes is
exact for every two operands.  So are the instructions on words. -/
theorem mulDiv_exact (core : IntegerCore) (enabled : core.Enabled) :
    (∀ instr op, core.result instr op =
        some (op.value (core.reg instr.rs1) (core.reg instr.rs2))) ∧
      (∀ a b : BitVec core.xlen, Exact a b fun op => op.value a b) ∧
      (∀ (hart : Rv64.Hart) instr op, resultW instr op hart =
        some ((op.value ((hart.regs instr.rs1).setWidth 32)
          ((hart.regs instr.rs2).setWidth 32)).signExtend 64)) ∧
      ∀ a b : BitVec 32, ExactW a b fun op => op.value a b := by
  refine ⟨?_, exact_value, ?_, exact_valueW⟩
  · intro instr op
    exact result_eq_value instr op enabled
  · intro hart instr op
    exact resultW_eq_value instr op hart

/-- A hart of the timing build with the least number and minus one. -/
def overflowing : IntegerCore :=
  .rv32 Rv32.Asserted.timedConfig
    { Rv32.Hart.reset 0 false 0 0 with
      regs := fun r =>
        if r = 1 then Rv32.Exec.regMin else if r = 2 then -1 else 0 }

theorem mulDiv_exact_overflowing :
    overflowing.result 0x0220c1b3 .div = some Rv32.Exec.regMin ∧
      overflowing.result 0x0220e1b3 .rem = some 0 := by
  have enabled : overflowing.Enabled := by
    rfl
  have values := (mulDiv_exact overflowing enabled).1
  exact ⟨(values 0x0220c1b3 .div).trans (by rfl),
    (values 0x0220e1b3 .rem).trans (by rfl)⟩

end Cores

end RiscvVp
