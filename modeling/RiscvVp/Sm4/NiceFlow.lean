import Mathlib
import RiscvVp.Rv32.Execute
import RiscvVp.Sm4.Rounds

/-!
# SM4 on the NICE instructions

`sw/sm4_nice/insn.c`, `sw/sm4_nice_T/insn.c` and `sw/sm4_nice_L/insn.c`.  The
three programs leave different parts of a round to a custom instruction: all of
it, the substitution with the linear step, or the substitution alone.

An inlined instruction is a function together with the proof that the core
leaves its value in the destination register.
-/

namespace RiscvVp

namespace Sm4

open Feistel Interaction Rv32

/-! ## The instructions -/

/-- `.insn r 0x7b, 7, funct7, rd, rs1, rs2` -/
def insn (funct7 : BitVec 7) (rd rs1 rs2 : BitVec 5) : Instruction :=
  funct7 ++ rs2 ++ rs1 ++ 0b111#3 ++ rd ++ 0x7b#7

section Fields

variable (funct7 : BitVec 7) (rd rs1 rs2 : BitVec 5)

@[simp]
theorem insn_opcode : (insn funct7 rd rs1 rs2).opcode = 0x7b := by
  ext bit below
  rw [Instruction.opcode, BitVec.getElem_extractLsb', insn]
  change (funct7 ++ rs2 ++ rs1 ++ 0b111#3 ++ rd ++ 0x7b#7).getLsbD _ = _
  grind

@[simp]
theorem insn_funct3 : (insn funct7 rd rs1 rs2).funct3 = 0b111 := by
  ext bit below
  rw [Instruction.funct3, BitVec.getElem_extractLsb', insn]
  change (funct7 ++ rs2 ++ rs1 ++ 0b111#3 ++ rd ++ 0x7b#7).getLsbD _ = _
  grind

@[simp]
theorem insn_funct7 : (insn funct7 rd rs1 rs2).funct7 = funct7 := by
  ext bit below
  rw [Instruction.funct7, BitVec.getElem_extractLsb', insn]
  change (funct7 ++ rs2 ++ rs1 ++ 0b111#3 ++ rd ++ 0x7b#7).getLsbD _ = _
  grind

@[simp]
theorem insn_rd : (insn funct7 rd rs1 rs2).rd = rd := by
  ext bit below
  rw [Instruction.rd, BitVec.getElem_extractLsb', insn]
  change (funct7 ++ rs2 ++ rs1 ++ 0b111#3 ++ rd ++ 0x7b#7).getLsbD _ = _
  grind

@[simp]
theorem insn_rs1 : (insn funct7 rd rs1 rs2).rs1 = rs1 := by
  ext bit below
  rw [Instruction.rs1, BitVec.getElem_extractLsb', insn]
  change (funct7 ++ rs2 ++ rs1 ++ 0b111#3 ++ rd ++ 0x7b#7).getLsbD _ = _
  grind

@[simp]
theorem insn_rs2 : (insn funct7 rd rs1 rs2).rs2 = rs2 := by
  ext bit below
  rw [Instruction.rs2, BitVec.getElem_extractLsb', insn]
  change (funct7 ++ rs2 ++ rs1 ++ 0b111#3 ++ rd ++ 0x7b#7).getLsbD _ = _
  grind

theorem decodeNormal_insn :
    (insn funct7 rd rs1 rs2).decodeNormal .rv32 = .custom3 := by
  rw [Instruction.decodeNormal, insn_opcode]
  rfl

end Fields

/-- The body of a custom instruction on any hart, in both builds. -/
theorem custom3_runs (cfg : Config) (hart : Hart) {word : Instruction}
    {function : Word → Word → Word}
    (named : Exec.niceFunction word = some function)
    (second : Exec.niceReadsRs2 word = true ∨
      ∀ a b, function a b = function a 0) :
    ∃ later, Machine.answering (perform cfg) (Exec.custom3 cfg word) hart =
        .ret (.done () later) ∧
      later.regs = (hart.setReg word.rd
        (function (hart.regs word.rs1) (hart.regs word.rs2))).regs := by
  have unread : Exec.niceReadsRs2 word = false →
      function (hart.regs word.rs1) 0 =
        function (hart.regs word.rs1) (hart.regs word.rs2) := by
    intro reads
    rcases second with reads' | constant
    · simp [reads] at reads'
    · exact (constant _ _).symm
  cases timed : cfg.pipelineTiming <;> cases reads : Exec.niceReadsRs2 word <;>
    simp [Exec.custom3, named, timed, reads, Body.reg, Body.setReg, Body.read,
      Body.write, Body.accessRegister, Body.act, Program.ask, perform,
      advancePipeline, PipelineEvent.apply]
  · rw [← unread reads]
    rfl
  · rw [← unread reads]
    rfl
  · rfl

/-- A custom instruction inlined into a program: whatever registers hold the
operands and take the result, the core fetches it as custom-3 and leaves the
value there. -/
structure Inlined (funct7 : BitVec 7) : Type where
  value : Word → Word → Word
  leaves : ∀ (cfg : Config) (hart : Hart) (rd rs1 rs2 : BitVec 5),
    ∃ later, executeDecoded cfg
        { hart with
          instr := insn funct7 rd rs1 rs2
          op := (insn funct7 rd rs1 rs2).decodeNormal .rv32 } =
        .ret (.done () later) ∧
      later.regs =
        (hart.setReg rd (value (hart.regs rs1) (hart.regs rs2))).regs

/-- The function that the core has under a code, inlined. -/
def Inlined.ofCode {funct7 : BitVec 7} (function : Word → Word → Word)
    (named : ∀ rd rs1 rs2,
      Exec.niceFunction (insn funct7 rd rs1 rs2) = some function)
    (second : (funct7 == 3 || funct7 == 4) = true ∨
      ∀ a b, function a b = function a 0) : Inlined funct7 where
  value := function
  leaves := by
    intro cfg hart rd rs1 rs2
    have reads : Exec.niceReadsRs2 (insn funct7 rd rs1 rs2) = true ∨
        ∀ a b, function a b = function a 0 := by
      refine second.imp_left fun takes => ?_
      simp only [Exec.niceReadsRs2, insn_funct7]
      simp only [Bool.or_eq_true] at takes ⊢
      tauto
    rw [decodeNormal_insn]
    obtain ⟨later, ran, regs⟩ := custom3_runs cfg
      { hart with instr := insn funct7 rd rs1 rs2, op := .custom3 }
      (named rd rs1 rs2) reads
    refine ⟨later, ran, ?_⟩
    rw [regs, insn_rd, insn_rs1, insn_rs2]
    rfl

/-! ## What `insn.h` inlines -/

def custom3Sm4ks : Inlined 3 :=
  .ofCode Sm4Nice.custom3Sm4ks (fun _ _ _ => by simp [Exec.niceFunction])
    (.inl rfl)

def custom3Sm4ed : Inlined 4 :=
  .ofCode Sm4Nice.custom3Sm4ed (fun _ _ _ => by simp [Exec.niceFunction])
    (.inl rfl)

/-- `custom3_sm4ks_T`; from here on the second operand is `x0`. -/
def custom3Sm4ksT : Inlined 5 :=
  .ofCode (fun first _ => Sm4Nice.custom3Sm4ksT first) (fun _ _ _ => by simp [Exec.niceFunction])
    (.inr fun _ _ => rfl)

def custom3Sm4edT : Inlined 6 :=
  .ofCode (fun first _ => Sm4Nice.custom3Sm4edT first) (fun _ _ _ => by simp [Exec.niceFunction])
    (.inr fun _ _ => rfl)

/-- `custom3_sm4ks_l` -/
def custom3Sm4ksNonlinear : Inlined 9 :=
  .ofCode (fun first _ => Sm4Nice.custom3Sm4ksNonlinear first) (fun _ _ _ => by simp [Exec.niceFunction])
    (.inr fun _ _ => rfl)

/-- `custom3_sm4ed_l` -/
def custom3Sm4edNonlinear : Inlined 10 :=
  .ofCode (fun first _ => Sm4Nice.custom3Sm4edNonlinear first) (fun _ _ _ => by simp [Exec.niceFunction])
    (.inr fun _ _ => rfl)

/-! ## The programs

They have the tables of `sm4_sw`, and the last one has its `SM4_Linear` too.
-/

inductive Flow : Type
  /-- `sm4_nice` -/
  | full
  /-- `sm4_nice_T` -/
  | transform
  /-- `sm4_nice_L` -/
  | linear
  deriving DecidableEq, Repr

namespace Flow

/-- What becomes `K[i + 4]`, from `K[i]` and `K_temp`. -/
def keyWord (k kTemp : Word) : Flow → Word
  | full => custom3Sm4ks.value k kTemp
  | transform => k ^^^ custom3Sm4ksT.value kTemp 0
  | linear => k ^^^ Software.sm4Linear (custom3Sm4ksNonlinear.value kTemp 0) 0

/-- What becomes `X[i + 4]` or `Y[i + 4]`. -/
def dataWord (x xTemp : Word) : Flow → Word
  | full => custom3Sm4ed.value x xTemp
  | transform => x ^^^ custom3Sm4edT.value xTemp 0
  | linear => x ^^^ Software.sm4Linear (custom3Sm4edNonlinear.value xTemp 0) 1

def keyLoop (flow : Flow) (arrays : (ℕ → Word) × (ℕ → Word)) (i : ℕ) :
    (ℕ → Word) × (ℕ → Word) :=
  let (k, rk) := arrays
  let kTemp := k (i + 1) ^^^ k (i + 2) ^^^ k (i + 3) ^^^ Software.sm4Ck.getD i 0
  let k := Function.update k (i + 4) (flow.keyWord (k i) kTemp)
  (k, Function.update rk i (k (i + 4)))

def dataLoop (flow : Flow) (key x : ℕ → Word) (i : ℕ) : ℕ → Word :=
  let xTemp := x (i + 1) ^^^ x (i + 2) ^^^ x (i + 3) ^^^ key i
  Function.update x (i + 4) (flow.dataWord (x i) xTemp)

/-- What a program computes and prints. -/
structure Output : Type where
  rk : ℕ → Word
  encrypted : Block Word
  decrypted : Block Word

/-- `sm4_nice`; the arrays start out as zeros. -/
def sm4Nice (flow : Flow) (key cipher : Block Word) : Output :=
  let start : Block Word := ⟨key.w0 ^^^ Software.sm4Fk.w0,
    key.w1 ^^^ Software.sm4Fk.w1, key.w2 ^^^ Software.sm4Fk.w2,
    key.w3 ^^^ Software.sm4Fk.w3⟩
  let rk := ((List.range 32).foldl flow.keyLoop
    (load (fun _ => 0) start, fun _ => 0)).2
  let x := (List.range 32).foldl (flow.dataLoop fun i => rk i)
    (load (fun _ => 0) cipher)
  let encrypted : Block Word := ⟨x 35, x 34, x 33, x 32⟩
  let y := (List.range 32).foldl (flow.dataLoop fun i => rk (31 - i))
    (load (fun _ => 0) encrypted)
  ⟨rk, encrypted, ⟨y 35, y 34, y 33, y 32⟩⟩

/-! ## The same cipher -/

theorem rotateLeft_eq (value : Word) {amount : ℕ} (below : amount < 32) :
    value.rotateLeft amount = Software.sm4Rotl32 value amount := by
  rw [BitVec.rotateLeft, Nat.mod_eq_of_lt below]
  rfl

theorem niceLinear_eq (b : Word) (mode : ℕ) :
    Sm4Nice.sm4Linear b mode = Software.sm4Linear b mode := by
  simp only [Sm4Nice.sm4Linear, Software.sm4Linear]
  rw [rotateLeft_eq b (by decide), rotateLeft_eq b (by decide),
    rotateLeft_eq b (by decide), rotateLeft_eq b (by decide),
    rotateLeft_eq b (by decide), rotateLeft_eq b (by decide)]

theorem niceNonlinear_eq (a : Word) :
    Sm4Nice.sm4Nonlinear a = Software.sm4Nonlinear a := by
  have tables : Sm4Nice.sm4Sbox = sbox := rfl
  have bytes : ∀ byte, Sm4Nice.substitute byte =
      (substitute byte).setWidth 32 := by
    intro byte
    rw [Sm4Nice.substitute, tables, substitute]
  have last : a &&& (0xff : Word) = (a >>> 0) &&& (0xff : Word) := by
    rw [BitVec.ushiftRight_zero]
  rw [Sm4Nice.sm4Nonlinear, Software.sm4Nonlinear, last]
  simp only [bytes, box_eq_substitute]

theorem keyWord_eq (flow : Flow) (k kTemp : Word) :
    flow.keyWord k kTemp =
      k ^^^ Software.sm4Linear (Software.sm4Nonlinear kTemp) 0 := by
  cases flow <;>
    simp only [keyWord, custom3Sm4ks, custom3Sm4ksT, custom3Sm4ksNonlinear,
      Inlined.ofCode,      Sm4Nice.custom3Sm4ks, Sm4Nice.custom3Sm4ksT,
      Sm4Nice.custom3Sm4ksNonlinear, niceLinear_eq, niceNonlinear_eq]

theorem dataWord_eq (flow : Flow) (x xTemp : Word) :
    flow.dataWord x xTemp =
      x ^^^ Software.sm4Linear (Software.sm4Nonlinear xTemp) 1 := by
  cases flow <;>
    simp only [dataWord, custom3Sm4ed, custom3Sm4edT, custom3Sm4edNonlinear,
      Inlined.ofCode,      Sm4Nice.custom3Sm4ed, Sm4Nice.custom3Sm4edT,
      Sm4Nice.custom3Sm4edNonlinear, niceLinear_eq, niceNonlinear_eq]

theorem keyLoop_eq (flow : Flow) : flow.keyLoop = Software.keyExpRound := by
  funext arrays i
  simp only [keyLoop, Software.keyExpRound, keyWord_eq]

theorem dataLoop_eq (flow : Flow) (key : ℕ → Word) :
    flow.dataLoop key = Software.cryptRound key := by
  funext x i
  simp only [dataLoop, Software.cryptRound, dataWord_eq]

/-- The programs run the software's loops. -/
theorem sm4Nice_unfold (flow : Flow) (key cipher : Block Word) :
    let output := flow.sm4Nice key cipher
    output.rk = ((List.range 32).foldl Software.keyExpRound
        (load (fun _ => 0) (whitened key), fun _ => 0)).2 ∧
      output.encrypted =
        (let x := (List.range 32).foldl
          (Software.cryptRound fun i => output.rk i) (load (fun _ => 0) cipher)
        ⟨x 35, x 34, x 33, x 32⟩) ∧
      output.decrypted =
        (let y := (List.range 32).foldl
          (Software.cryptRound fun i => output.rk (31 - i))
          (load (fun _ => 0) output.encrypted)
        ⟨y 35, y 34, y 33, y 32⟩) := by
  simp only [sm4Nice, keyLoop_eq, dataLoop_eq, whitened, and_self]

/-- Each of the three programs computes the software's round keys, ciphertext
and plaintext, and gets back the block it started from. -/
theorem sm4Nice_eq (flow : Flow) (key cipher : Block Word) :
    let output := flow.sm4Nice key cipher
    (∀ i < 32, output.rk i = Software.sm4KeyExp key (fun _ => 0) i) ∧
      output.encrypted = Software.encryption key cipher ∧
      output.decrypted = Software.decryption key output.encrypted ∧
      output.decrypted = cipher := by
  obtain ⟨rk, encrypted, decrypted⟩ := flow.sm4Nice_unfold key cipher
  have keys : ∀ i < 32, (flow.sm4Nice key cipher).rk i = roundKey key i := by
    intro i below
    rw [rk]
    exact Software.keyExpRound_keys rfl _ below
  have encrypts : (flow.sm4Nice key cipher).encrypted = encrypt key cipher := by
    rw [encrypted, Software.cryptRound_foldl]
    exact crypt_congr keys
  have decrypts : (flow.sm4Nice key cipher).decrypted =
      decrypt key (flow.sm4Nice key cipher).encrypted := by
    rw [decrypted, Software.cryptRound_foldl]
    exact crypt_congr fun i below => keys (31 - i) (by omega)
  refine ⟨fun i below => ?_, ?_, ?_, ?_⟩
  · rw [keys i below, Software.sm4KeyExp_eq key _ below]
  · rw [encrypts, Software.encryption_eq]
  · rw [decrypts, Software.decryption_eq]
  · rw [decrypts, encrypts, decrypt_encrypt]

end Flow

end Sm4

end RiscvVp
