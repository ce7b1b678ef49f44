import RiscvVp.Rv32.Shapes
import RiscvVp.Rv32.Steady

/-!
# Control transfers

A branch, `JAL` or `JALR` assigns the program counter and only then checks it.
The immediates are even and `JALR` clears the last bit, so the check for an odd
address never fails; whether a target that is not a multiple of four is
accepted depends on the C extension.
-/

namespace RiscvVp

namespace Rv32

open Bits Csr Interaction

/-! ## Alignment -/

/-- The address has no bit outside `pc_alignment_mask`. -/
def Hart.Aligned (hart : Hart) (addr : BitVec 32) : Prop :=
  Within hart.pcAlignmentMask addr

instance (hart : Hart) (addr : BitVec 32) : Decidable (hart.Aligned addr) :=
  inferInstanceAs (Decidable (Within _ _))

theorem within_even (word : BitVec 32) :
    Within (~~~0x1) word ↔ word.toNat % 2 = 0 := by
  unfold Within
  rw [BitVec.not_not, ← BitVec.toNat_inj, BitVec.toNat_and]
  exact Eq.congr (Nat.and_two_pow_sub_one_eq_mod word.toNat 1) rfl

theorem within_word (word : BitVec 32) :
    Within (~~~0x3) word ↔ word.toNat % 4 = 0 := by
  unfold Within
  rw [BitVec.not_not, ← BitVec.toNat_inj, BitVec.toNat_and]
  exact Eq.congr (Nat.and_two_pow_sub_one_eq_mod word.toNat 2) rfl

namespace Hart

variable {hart : Hart} {addr : BitVec 32}

theorem aligned_of_compressed (compressed : hart.hasExtension Misa.c = true) :
    hart.Aligned addr ↔ addr.toNat % 2 = 0 := by
  rw [Aligned, pcAlignmentMask, if_pos compressed, within_even]

theorem aligned_of_not_compressed
    (plain : hart.hasExtension Misa.c = false) :
    hart.Aligned addr ↔ addr.toNat % 4 = 0 := by
  rw [Aligned, pcAlignmentMask, if_neg (by simp [plain]), within_word]

/-- A multiple of four is aligned under either mask. -/
theorem aligned_of_word (word : addr.toNat % 4 = 0) : hart.Aligned addr := by
  cases compressed : hart.hasExtension Misa.c with
  | true =>
      rw [aligned_of_compressed compressed]
      omega
  | false =>
      rw [aligned_of_not_compressed compressed]
      exact word

theorem even_of_aligned (aligned : hart.Aligned addr) :
    addr.toNat % 2 = 0 := by
  cases compressed : hart.hasExtension Misa.c with
  | true => exact (aligned_of_compressed compressed).1 aligned
  | false =>
      have word := (aligned_of_not_compressed compressed).1 aligned
      omega

/-- The step past an instruction of four bytes. -/
theorem Aligned.add_four (aligned : hart.Aligned addr) :
    hart.Aligned (addr + 4) := by
  have sum : (addr + 4).toNat = (addr.toNat + 4) % 2 ^ 32 :=
    BitVec.toNat_add addr 4
  cases compressed : hart.hasExtension Misa.c with
  | true =>
      rw [aligned_of_compressed compressed] at aligned ⊢
      omega
  | false =>
      rw [aligned_of_not_compressed compressed] at aligned ⊢
      omega

/-- The step past a compressed instruction. -/
theorem Aligned.add_two (aligned : hart.Aligned addr)
    (compressed : hart.hasExtension Misa.c = true) :
    hart.Aligned (addr + 2) := by
  have sum : (addr + 2).toNat = (addr.toNat + 2) % 2 ^ 32 :=
    BitVec.toNat_add addr 2
  rw [aligned_of_compressed compressed] at aligned ⊢
  omega

end Hart

/-- Every entry to a handler is a multiple of four. -/
theorem handlerAddress_toNat_mod (tvec cause : BitVec 32) :
    (handlerAddress tvec cause).toNat % 4 = 0 := by
  have base : (Mtvec.getBaseAddress tvec).toNat % 4 = 0 := by
    rw [Mtvec.getBaseAddress, BitVec.toNat_shiftLeft, Nat.shiftLeft_eq]
    omega
  unfold handlerAddress
  dsimp only
  split
  · rw [BitVec.toNat_add, BitVec.toNat_mul]
    have four : BitVec.toNat (4 : BitVec 32) = 4 := rfl
    rw [four]
    omega
  · exact base

/-! ## Targets -/

/-- The conditions of the branches. -/
def branchCondition : Mapping → BitVec 32 → BitVec 32 → Bool
  | .beq => fun a b => a == b
  | .bne => fun a b => a != b
  | .blt => fun a b => a.slt b
  | .bge => fun a b => !a.slt b
  | .bltu => fun a b => a.ult b
  | .bgeu => fun a b => !a.ult b
  | _ => fun _ _ => false

/-- Where the decoded instruction transfers control to, if it does. -/
def Hart.transferTarget (decoded : Hart) : Option (BitVec 32) :=
  let instr : Instruction := decoded.instr
  if decoded.op = .jal then some (decoded.lastPc + instr.jImm)
  else if decoded.op = .jalr then
    some ((decoded.regs instr.rs1 + instr.iImm) &&& ~~~1)
  else if branchCondition decoded.op (decoded.regs instr.rs1)
      (decoded.regs instr.rs2) then
    some (decoded.lastPc + instr.bImm)
  else none

theorem bImm_even (instr : Instruction) : instr.bImm.toNat % 2 = 0 := by
  have bit : instr.bImm.getLsbD 0 = false := by
    simp [Instruction.bImm, Instruction.asr, Instruction.bitSingle,
      Instruction.bitRange, BitVec.getElem_sshiftRight]
  simpa [BitVec.getLsbD, Nat.testBit_zero] using bit

theorem jImm_even (instr : Instruction) : instr.jImm.toNat % 2 = 0 := by
  have bit : instr.jImm.getLsbD 0 = false := by
    simp [Instruction.jImm, Instruction.asr, Instruction.bitSingle,
      Instruction.bitRange, BitVec.getElem_sshiftRight]
  simpa [BitVec.getLsbD, Nat.testBit_zero] using bit

theorem add_even {first second : BitVec 32} (left : first.toNat % 2 = 0)
    (right : second.toNat % 2 = 0) : (first + second).toNat % 2 = 0 := by
  rw [BitVec.toNat_add]
  omega

/-! ## Execution -/

/-- What a control transfer keeps. -/
structure Unmoved (before after : Hart) : Prop where
  lastPc : after.lastPc = before.lastPc
  prv : after.prv = before.prv
  csrs : after.csrs = before.csrs

/-- How a control transfer ends. -/
inductive Transferred (hart : Hart) (target : BitVec 32) :
    Outcome Hart SimulationTrap Fatal Unit → Prop
  | arrived {after : Hart} (aligned : hart.Aligned target)
      (pc : after.pc = target) (unmoved : Unmoved hart after) :
      Transferred hart target (.done () after)
  | refused {after : Hart} (misaligned : ¬ hart.Aligned target)
      (unmoved : Unmoved hart after) :
      Transferred hart target
        (.trap ⟨.instrAddrMisaligned, target.setWidth 64⟩ after)

/-- The check of the program counter, when its last bit is clear. -/
theorem trapCheckPcAlignment_apply (cfg : Config) {hart : Hart}
    (even : hart.pc.toNat % 2 = 0) :
    Machine.answering (perform cfg) Body.trapCheckPcAlignment hart = .ret
      (if hart.Aligned hart.pc then .done () hart
      else .trap ⟨.instrAddrMisaligned, hart.pc.setWidth 64⟩ hart) := by
  have last : hart.pc &&& 1#32 = 0#32 := by
    have within := (within_even hart.pc).2 even
    rwa [Within, BitVec.not_not] at within
  cases compressed : hart.hasExtension Misa.c with
  | true =>
      have aligned : hart.Aligned hart.pc :=
        (Hart.aligned_of_compressed compressed).2 even
      rw [if_pos aligned]
      rw [Hart.hasExtension] at compressed
      simp [Body.trapCheckPcAlignment, Body.pc, Body.csr, Body.act,
        Program.ask, perform, last, compressed]
  | false =>
      have checked : hart.Aligned hart.pc ↔ hart.pc &&& 3#32 = 0#32 := by
        rw [Hart.aligned_of_not_compressed compressed, ← within_word, Within,
          BitVec.not_not]
        rfl
      rw [Hart.hasExtension] at compressed
      by_cases aligned : hart.pc &&& 3#32 = 0#32
      · rw [if_pos (checked.2 aligned)]
        simp [Body.trapCheckPcAlignment, Body.pc, Body.csr, Body.act,
          Program.ask, perform, last, aligned]
      · rw [if_neg (mt checked.1 aligned)]
        simp [Body.trapCheckPcAlignment, Body.pc, Body.csr, Body.act,
          Body.raiseTrap, Program.ask, perform, last, compressed, aligned]

/-- The assignment of the program counter, with its check. -/
theorem setPc_apply (cfg : Config) (hart : Hart) {target : BitVec 32}
    (even : target.toNat % 2 = 0) :
    Machine.answering (perform cfg)
        (Body.setPc target >>= fun _ => Body.trapCheckPcAlignment) hart =
      .ret (if hart.Aligned target then .done () { hart with pc := target }
        else .trap ⟨.instrAddrMisaligned, target.setWidth 64⟩
          { hart with pc := target }) :=
  @trapCheckPcAlignment_apply cfg { hart with pc := target } even

/-! ### Registers in both builds -/

section Registers

variable (cfg : Config) (hart : Hart) (regIdx : BitVec 5)

theorem reg_apply :
    Machine.answering (perform cfg) (Body.reg regIdx) hart =
      .ret (.done (hart.regs regIdx) hart) :=
  rfl

theorem read_apply :
    Machine.answering (perform cfg) (Body.read regIdx) hart =
      .ret (.done (hart.regs regIdx)
        { hart with pipeline := hart.pipeline.accessRegister regIdx }) :=
  rfl

theorem setReg_apply (value : BitVec 32) :
    Machine.answering (perform cfg) (Body.setReg regIdx value) hart =
      .ret (.done () (hart.setReg regIdx value)) :=
  rfl

theorem write_apply (value : BitVec 32) :
    Machine.answering (perform cfg) (Body.write regIdx value) hart =
      .ret (.done ()
        (Hart.setReg
          { hart with pipeline := hart.pipeline.accessRegister regIdx }
          regIdx value)) :=
  rfl

/-- Nothing happens when the extension is there. -/
theorem requireIsa_apply (instr : Instruction) {extension : BitVec 32}
    (present : Misa.has (hart.csrs .misa) extension = true) :
    Machine.answering (perform cfg) (Body.requireIsa instr extension) hart =
      .ret (.done () hart) := by
  simp [Body.requireIsa, Body.csr, Body.act, Program.ask, perform, present]

end Registers

/-- The transfer after the operands have been read. -/
theorem transferred_of_setPc {cfg : Config} {hart middle : Hart}
    {target : BitVec 32} (even : target.toNat % 2 = 0)
    (unmoved : Unmoved hart middle) :
    (Machine.answering (perform cfg)
        (Body.setPc target >>= fun _ => Body.trapCheckPcAlignment)
        middle).All (Transferred hart target) := by
  have same : middle.Aligned target ↔ hart.Aligned target := by
    rw [Hart.Aligned, Hart.Aligned, Hart.pcAlignmentMask,
      Hart.pcAlignmentMask, Hart.hasExtension, Hart.hasExtension,
      unmoved.csrs]
  have arrives : Unmoved hart { middle with pc := target } :=
    ⟨unmoved.lastPc, unmoved.prv, unmoved.csrs⟩
  rw [setPc_apply cfg middle even, Program.all_ret]
  split
  next aligned => exact .arrived (same.1 aligned) rfl arrives
  next misaligned => exact .refused (mt same.2 misaligned) arrives

section Execute

variable (cfg : Config) (instr : Instruction) (hart : Hart)

/-- A branch ends as its condition says. -/
theorem branch_all (condition : BitVec 32 → BitVec 32 → Bool)
    (start : hart.lastPc.toNat % 2 = 0) :
    (Machine.answering (perform cfg) (Exec.branch cfg instr condition)
        hart).All fun outcome =>
      if condition (hart.regs instr.rs1) (hart.regs instr.rs2) then
        Transferred hart (hart.lastPc + instr.bImm) outcome
      else ∃ after, outcome = .done () after ∧ after.pc = hart.pc ∧
        Unmoved hart after := by
  have even := add_even start (bImm_even instr)
  -- the rest of either build, from a state that differs in the pipeline only
  have rest (pipeline : HiFive1PipelineTiming) :
      (Machine.answering (perform cfg)
        (if condition (hart.regs instr.rs1) (hart.regs instr.rs2) then do
          let lastPc ← Body.lastPc
          Body.setPc (lastPc + instr.bImm)
          Body.trapCheckPcAlignment
        else pure ()) { hart with pipeline := pipeline }).All fun outcome =>
          if condition (hart.regs instr.rs1) (hart.regs instr.rs2) then
            Transferred hart (hart.lastPc + instr.bImm) outcome
          else ∃ after, outcome = .done () after ∧ after.pc = hart.pc ∧
            Unmoved hart after := by
    split
    · exact transferred_of_setPc even ⟨rfl, rfl, rfl⟩
    · exact ⟨_, rfl, rfl, ⟨rfl, rfl, rfl⟩⟩
  unfold Exec.branch
  split
  · rw [Machine.answering_bind, Machine.bind_apply, read_apply,
      Program.ret_bind, Machine.andThen_done, Machine.answering_bind,
      Machine.bind_apply, read_apply, Program.ret_bind, Machine.andThen_done]
    exact rest _
  · rw [Machine.answering_bind, Machine.bind_apply, reg_apply,
      Program.ret_bind, Machine.andThen_done, Machine.answering_bind,
      Machine.bind_apply, reg_apply, Program.ret_bind, Machine.andThen_done]
    exact rest _

/-- The destination is written after the check has passed. -/
theorem link_all {target link : BitVec 32} {middle : Hart}
    (even : target.toNat % 2 = 0) (unmoved : Unmoved hart middle) :
    (Machine.answering (perform cfg)
        (Body.setPc target >>= fun _ => Body.trapCheckPcAlignment >>= fun _ =>
          if cfg.pipelineTiming then Body.write instr.rd link
          else Body.setReg instr.rd link) middle).All
      (Transferred hart target) := by
  rw [← Program.bind_assoc, Machine.answering_bind, Machine.all_bind]
  refine (transferred_of_setPc even unmoved).mono fun outcome transferred => ?_
  cases transferred with
  | arrived aligned pc unmoved =>
      dsimp only
      split
      · rw [write_apply, Program.all_ret]
        exact .arrived aligned pc ⟨unmoved.lastPc, unmoved.prv, unmoved.csrs⟩
      · rw [setReg_apply, Program.all_ret]
        exact .arrived aligned pc ⟨unmoved.lastPc, unmoved.prv, unmoved.csrs⟩
  | refused misaligned unmoved => exact .refused misaligned unmoved

theorem jal_all (start : hart.lastPc.toNat % 2 = 0) :
    (Machine.answering (perform cfg) (Exec.jal cfg instr) hart).All
      (Transferred hart (hart.lastPc + instr.jImm)) :=
  link_all cfg instr hart (add_even start (jImm_even instr)) ⟨rfl, rfl, rfl⟩

theorem jalr_all :
    (Machine.answering (perform cfg) (Exec.jalr cfg instr) hart).All
      (Transferred hart
        ((hart.regs instr.rs1 + instr.iImm) &&& ~~~1)) := by
  have even : ((hart.regs instr.rs1 + instr.iImm) &&& ~~~1).toNat % 2 = 0 := by
    rw [← within_even]
    simp [Within, BitVec.and_assoc]
  exact link_all cfg instr hart even ⟨rfl, rfl, rfl⟩

end Execute

/-- A control transfer ends as its target says; a branch that is not taken
falls through. -/
theorem execute_transfer (cfg : Config) {decoded : Hart}
    (transfers : isTransfer decoded.op = true)
    (start : decoded.lastPc.toNat % 2 = 0) :
    (Machine.answering (perform cfg)
        (execute cfg decoded.instr decoded.op) decoded).All fun outcome =>
      match decoded.transferTarget with
      | some target => Transferred decoded target outcome
      | none => ∃ after, outcome = .done () after ∧ after.pc = decoded.pc ∧
          Unmoved decoded after := by
  have branches (op : Mapping) (same : decoded.op = op)
      (member : isBranch op = true)
      (body : execute cfg decoded.instr op =
        Exec.branch cfg decoded.instr (branchCondition op)) :
      (Machine.answering (perform cfg)
          (execute cfg decoded.instr decoded.op) decoded).All fun outcome =>
        match decoded.transferTarget with
        | some target => Transferred decoded target outcome
        | none => ∃ after, outcome = .done () after ∧ after.pc = decoded.pc ∧
            Unmoved decoded after := by
    have jumps : op ≠ .jal ∧ op ≠ .jalr := by
      constructor <;> (rintro rfl; cases member)
    rw [same, body, Hart.transferTarget]
    refine (branch_all cfg decoded.instr decoded (branchCondition op)
      start).mono fun outcome ends => ?_
    rw [same, if_neg jumps.1, if_neg jumps.2]
    split at ends
    next taken =>
      rw [if_pos taken]
      exact ends
    next falls =>
      rw [if_neg falls]
      exact ends
  cases op : decoded.op with
  | beq | bne | blt | bge | bltu | bgeu =>
      have proved := branches _ op rfl rfl
      rwa [op] at proved
  | jal =>
      have target : decoded.transferTarget =
          some (decoded.lastPc + Instruction.jImm decoded.instr) := by
        rw [Hart.transferTarget, op]
        rfl
      rw [target]
      exact jal_all cfg decoded.instr decoded start
  | jalr =>
      have target : decoded.transferTarget =
          some ((decoded.regs (Instruction.rs1 decoded.instr) +
            Instruction.iImm decoded.instr) &&& ~~~1) := by
        rw [Hart.transferTarget, op]
        rfl
      rw [target]
      exact jalr_all cfg decoded.instr decoded
  | _ =>
      rw [op] at transfers
      cases transfers

end Rv32

end RiscvVp
