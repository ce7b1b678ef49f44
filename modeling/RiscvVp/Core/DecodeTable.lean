import RiscvVp.Core.Decode

/-!
# The decoder as a table

`decodeNormal` switches on fields before it compares a word with an encoding.
A word that carries the encoding of a mapping has the fields that lead there,
so the switches lose nothing: an ordinary mapping is decoded from exactly the
words that carry its encoding.
-/

namespace RiscvVp

namespace Mapping

/-- A mapping of the table: not `undef` and not a custom opcode, whose masks
are not compared. -/
def Ordinary (op : Mapping) : Prop :=
  op ≠ .undef ∧ ¬ Instruction.IsCustomMapping op

instance (op : Mapping) : Decidable op.Ordinary :=
  inferInstanceAs (Decidable (_ ∧ _))

/-- The encoding that counts for an architecture: the 32-bit shifts have their
own. -/
def encodingFor (arch : Architecture) : Mapping → Encoding
  | slli => if arch = .rv32 then slli32 else slli.encoding
  | srli => if arch = .rv32 then srli32 else srli.encoding
  | srai => if arch = .rv32 then srai32 else srai.encoding
  | op => op.encoding

/-- The additions of the 64-bit architecture. -/
def rv64Additions : List Mapping :=
  [lwu, ld, sd, addiw, slliw, srliw, sraiw, addw, subw, sllw, srlw, sraw,
    mulw, divw, divuw, remw, remuw,
    lrD, scD, amoswapD, amoaddD, amoxorD, amoandD, amoorD, amominD, amomaxD,
    amominuD, amomaxuD,
    fcvtLS, fcvtLuS, fcvtSL, fcvtSLu,
    fcvtLD, fcvtLuD, fmvXD, fcvtDL, fcvtDLu, fmvDX]

/-- The architecture has the instruction. -/
def ExistsFor (arch : Architecture) (op : Mapping) : Prop :=
  arch = .rv64 ∨ op ∉ rv64Additions

instance (arch : Architecture) (op : Mapping) : Decidable (ExistsFor arch op) :=
  inferInstanceAs (Decidable (_ ∨ _))

/-- A run of bits that the mask covers is the encoding's. -/
theorem Encoding.Matches.extract {encoding : Encoding} {data : BitVec 32}
    (matched : encoding.Matches data) (start len : ℕ)
    (covers : encoding.mask.extractLsb' start len = BitVec.allOnes len) :
    data.extractLsb' start len = encoding.bits.extractLsb' start len := by
  have both := congrArg (fun word => word.extractLsb' start len) matched
  simp only [BitVec.extractLsb'_and, covers, BitVec.and_allOnes] at both
  exact both

end Mapping

namespace Instruction

open Mapping

theorem matchAndReturn2_of_matches {instr : Instruction} {encoding : Encoding}
    {op : Mapping} (matched : encoding.Matches instr) :
    matchAndReturn2 instr encoding op = op := by
  simp [matchAndReturn2, matched]

theorem matchAndReturn_of_matches {instr : Instruction} {op : Mapping}
    (matched : op.encoding.Matches instr) : matchAndReturn instr op = op :=
  matchAndReturn2_of_matches matched

theorem funct7_of_funct12 (instr : Instruction) :
    instr.funct7 = instr.funct12.extractLsb' 5 7 := by
  ext bit below
  simp only [funct7, funct12, BitVec.getElem_extractLsb',
    BitVec.getLsbD_extractLsb']
  have inside : 5 + bit < 12 := by omega
  simp only [inside, decide_true, Bool.true_and, ← Nat.add_assoc]

theorem decodeNormal_of_register (arch : Architecture) {instr : Instruction}
    (major : instr.opcode = 0b0110011) :
    decodeNormal arch instr = decodeRegister instr := by
  rw [decodeNormal, major]
  rfl

theorem decodeNormal_of_registerWord (arch : Architecture) {instr : Instruction}
    (major : instr.opcode = 0b0111011) :
    decodeNormal arch instr = decodeRegisterWord instr := by
  rw [decodeNormal, major]
  rfl

theorem decodeNormal_of_immediate (arch : Architecture) {instr : Instruction}
    (major : instr.opcode = 0b0010011) :
    decodeNormal arch instr = decodeImmediate arch instr := by
  rw [decodeNormal, major]
  rfl

theorem decodeNormal_of_float (arch : Architecture) {instr : Instruction}
    (major : instr.opcode = 0b1010011) :
    decodeNormal arch instr = decodeFloat instr := by
  rw [decodeNormal, major]
  rfl

attribute [local simp] encoding

/-! ## Words that carry an encoding

One lemma for each shape of the switches.
-/

section Complete

variable (arch : Architecture) {instr : Instruction} {op : Mapping}
  (matched : op.encoding.Matches instr)

include matched

/-- No switch below the major opcode. -/
theorem decodeNormal_upper (member : op ∈ [lui, auipc, jal, jalr]) :
    decodeNormal arch instr = op := by
  apply Eq.trans _ (matchAndReturn_of_matches matched)
  simp only [List.mem_cons, List.not_mem_nil, or_false] at member
  rcases member with rfl | rfl | rfl | rfl
  all_goals
    rw [decodeNormal, opcode, matched.extract 0 7 rfl]
    rfl

theorem decodeNormal_branch (member : op ∈ [beq, bne, blt, bge, bltu, bgeu]) :
    decodeNormal arch instr = op := by
  apply Eq.trans _ (matchAndReturn_of_matches matched)
  simp only [List.mem_cons, List.not_mem_nil, or_false] at member
  rcases member with rfl | rfl | rfl | rfl | rfl | rfl
  all_goals
    rw [decodeNormal, opcode, matched.extract 0 7 rfl]
    change decodeBranch instr = _
    rw [decodeBranch, funct3, matched.extract 12 3 rfl]
    rfl

theorem decodeNormal_load (member : op ∈ [lb, lh, lw, lbu, lhu, lwu, ld]) :
    decodeNormal arch instr = op := by
  apply Eq.trans _ (matchAndReturn_of_matches matched)
  simp only [List.mem_cons, List.not_mem_nil, or_false] at member
  rcases member with rfl | rfl | rfl | rfl | rfl | rfl | rfl
  all_goals
    rw [decodeNormal, opcode, matched.extract 0 7 rfl]
    change decodeLoad instr = _
    rw [decodeLoad, funct3, matched.extract 12 3 rfl]
    rfl

theorem decodeNormal_store (member : op ∈ [sb, sh, sw, sd]) :
    decodeNormal arch instr = op := by
  apply Eq.trans _ (matchAndReturn_of_matches matched)
  simp only [List.mem_cons, List.not_mem_nil, or_false] at member
  rcases member with rfl | rfl | rfl | rfl
  all_goals
    rw [decodeNormal, opcode, matched.extract 0 7 rfl]
    change decodeStore instr = _
    rw [decodeStore, funct3, matched.extract 12 3 rfl]
    rfl

theorem decodeNormal_immediate
    (member : op ∈ [addi, slti, sltiu, xori, ori, andi]) :
    decodeNormal arch instr = op := by
  apply Eq.trans _ (matchAndReturn_of_matches matched)
  simp only [List.mem_cons, List.not_mem_nil, or_false] at member
  rcases member with rfl | rfl | rfl | rfl | rfl | rfl
  all_goals
    rw [decodeNormal, opcode, matched.extract 0 7 rfl]
    change decodeImmediate arch instr = _
    rw [decodeImmediate, funct3, matched.extract 12 3 rfl]
    rfl

theorem decodeNormal_immediateWord (member : op ∈ [addiw, slliw]) :
    decodeNormal arch instr = op := by
  apply Eq.trans _ (matchAndReturn_of_matches matched)
  simp only [List.mem_cons, List.not_mem_nil, or_false] at member
  rcases member with rfl | rfl
  all_goals
    rw [decodeNormal, opcode, matched.extract 0 7 rfl]
    change decodeImmediateWord instr = _
    rw [decodeImmediateWord, funct3, matched.extract 12 3 rfl]
    rfl

theorem decodeNormal_shiftWord (member : op ∈ [srliw, sraiw]) :
    decodeNormal arch instr = op := by
  apply Eq.trans _ (matchAndReturn_of_matches matched)
  simp only [List.mem_cons, List.not_mem_nil, or_false] at member
  rcases member with rfl | rfl
  all_goals
    rw [decodeNormal, opcode, matched.extract 0 7 rfl]
    change decodeImmediateWord instr = _
    rw [decodeImmediateWord, funct3, matched.extract 12 3 rfl, funct7,
      matched.extract 25 7 rfl]
    rfl

theorem decodeNormal_register
    (member : op ∈ [add, sll, slt, sltu, xor, srl, or, and, sub, sra, mul,
      mulh, mulhsu, mulhu, div, divu, rem, remu]) :
    decodeNormal arch instr = op := by
  apply Eq.trans _ (matchAndReturn_of_matches matched)
  simp only [List.mem_cons, List.not_mem_nil, or_false] at member
  rw [decodeNormal_of_register arch]
  · rcases member with rfl | rfl | rfl | rfl | rfl | rfl | rfl | rfl | rfl |
    rfl | rfl | rfl | rfl | rfl | rfl | rfl | rfl | rfl
    all_goals
      have seventh := matched.extract 25 7 rfl
      have third := matched.extract 12 3 rfl
      simp only [encoding, BitVec.reduceExtractLsb'] at seventh third
      simp only [decodeRegister, funct7, funct3, seventh, third]
  · rcases member with rfl | rfl | rfl | rfl | rfl | rfl | rfl | rfl | rfl |
    rfl | rfl | rfl | rfl | rfl | rfl | rfl | rfl | rfl
    all_goals exact matched.extract 0 7 rfl

theorem decodeNormal_registerWord
    (member : op ∈ [addw, sllw, srlw, subw, sraw, mulw, divw, divuw, remw,
      remuw]) :
    decodeNormal arch instr = op := by
  apply Eq.trans _ (matchAndReturn_of_matches matched)
  simp only [List.mem_cons, List.not_mem_nil, or_false] at member
  rw [decodeNormal_of_registerWord arch]
  · rcases member with rfl | rfl | rfl | rfl | rfl | rfl | rfl | rfl | rfl | rfl
    all_goals
      have seventh := matched.extract 25 7 rfl
      have third := matched.extract 12 3 rfl
      simp only [encoding, BitVec.reduceExtractLsb'] at seventh third
      simp only [decodeRegisterWord, funct7, funct3, seventh, third]
  · rcases member with rfl | rfl | rfl | rfl | rfl | rfl | rfl | rfl | rfl | rfl
    all_goals exact matched.extract 0 7 rfl

theorem decodeNormal_fence (member : op ∈ [fence, fenceI]) :
    decodeNormal arch instr = op := by
  apply Eq.trans _ (matchAndReturn_of_matches matched)
  simp only [List.mem_cons, List.not_mem_nil, or_false] at member
  rcases member with rfl | rfl
  all_goals
    rw [decodeNormal, opcode, matched.extract 0 7 rfl]
    change decodeFence instr = _
    rw [decodeFence, funct3, matched.extract 12 3 rfl]
    rfl

theorem decodeNormal_csr
    (member : op ∈ [csrrw, csrrs, csrrc, csrrwi, csrrsi, csrrci]) :
    decodeNormal arch instr = op := by
  apply Eq.trans _ (matchAndReturn_of_matches matched)
  simp only [List.mem_cons, List.not_mem_nil, or_false] at member
  rcases member with rfl | rfl | rfl | rfl | rfl | rfl
  all_goals
    rw [decodeNormal, opcode, matched.extract 0 7 rfl]
    change decodeSystem instr = _
    rw [decodeSystem, funct3, matched.extract 12 3 rfl]
    rfl

theorem decodeNormal_privileged
    (member : op ∈ [ecall, ebreak, uret, sret, mret, wfi]) :
    decodeNormal arch instr = op := by
  apply Eq.trans _ (matchAndReturn_of_matches matched)
  simp only [List.mem_cons, List.not_mem_nil, or_false] at member
  rcases member with rfl | rfl | rfl | rfl | rfl | rfl
  all_goals
    rw [decodeNormal, opcode, matched.extract 0 7 rfl]
    change decodeSystem instr = _
    rw [decodeSystem, funct3, matched.extract 12 3 rfl, funct12,
      matched.extract 20 12 rfl]
    rfl

theorem decodeNormal_amo
    (member : op ∈ [lrW, scW, amoswapW, amoaddW, amoxorW, amoandW, amoorW,
      amominW, amomaxW, amominuW, amomaxuW, lrD, scD, amoswapD, amoaddD,
      amoxorD, amoandD, amoorD, amominD, amomaxD, amominuD, amomaxuD]) :
    decodeNormal arch instr = op := by
  apply Eq.trans _ (matchAndReturn_of_matches matched)
  simp only [List.mem_cons, List.not_mem_nil, or_false] at member
  rcases member with rfl | rfl | rfl | rfl | rfl | rfl | rfl | rfl | rfl |
    rfl | rfl | rfl | rfl | rfl | rfl | rfl | rfl | rfl | rfl | rfl | rfl | rfl
  all_goals
    rw [decodeNormal, opcode, matched.extract 0 7 rfl]
    change decodeAmo instr = _
    rw [decodeAmo, funct5, matched.extract 27 5 rfl]
    change decodeAmoWidth instr _ _ = _
    rw [decodeAmoWidth, funct3, matched.extract 12 3 rfl]
    rfl

theorem decodeNormal_fused
    (member : op ∈ [fmaddS, fmaddD, fmsubS, fmsubD, fnmsubS, fnmsubD,
      fnmaddS, fnmaddD]) :
    decodeNormal arch instr = op := by
  apply Eq.trans _ (matchAndReturn_of_matches matched)
  simp only [List.mem_cons, List.not_mem_nil, or_false] at member
  rcases member with rfl | rfl | rfl | rfl | rfl | rfl | rfl | rfl
  all_goals
    rw [decodeNormal, opcode, matched.extract 0 7 rfl]
    change decodeFused instr _ _ = _
    rw [decodeFused, funct2, matched.extract 25 2 rfl]
    rfl

theorem decodeNormal_floatMemory (member : op ∈ [flw, fld, fsw, fsd]) :
    decodeNormal arch instr = op := by
  apply Eq.trans _ (matchAndReturn_of_matches matched)
  simp only [List.mem_cons, List.not_mem_nil, or_false] at member
  rcases member with rfl | rfl | rfl | rfl
  all_goals
    rw [decodeNormal, opcode, matched.extract 0 7 rfl]
    change decodeFloatMemory instr _ _ = _
    rw [decodeFloatMemory, funct3, matched.extract 12 3 rfl]
    rfl

/-- `funct7` alone. -/
theorem decodeNormal_float
    (member : op ∈ [faddS, faddD, fsubS, fsubD, fmulS, fmulD, fdivS, fdivD,
      fsqrtS, fsqrtD, fcvtSD, fcvtDS, fmvWX, fmvDX]) :
    decodeNormal arch instr = op := by
  apply Eq.trans _ (matchAndReturn_of_matches matched)
  simp only [List.mem_cons, List.not_mem_nil, or_false] at member
  rw [decodeNormal_of_float arch]
  · rcases member with rfl | rfl | rfl | rfl | rfl | rfl | rfl | rfl | rfl |
    rfl | rfl | rfl | rfl | rfl
    all_goals
      have seventh := matched.extract 25 7 rfl
      simp only [encoding, BitVec.reduceExtractLsb'] at seventh
      simp only [decodeFloat, funct7, seventh]
  · rcases member with rfl | rfl | rfl | rfl | rfl | rfl | rfl | rfl | rfl |
    rfl | rfl | rfl | rfl | rfl
    all_goals exact matched.extract 0 7 rfl

/-- `funct7` and `funct3`. -/
theorem decodeNormal_floatFunct3
    (member : op ∈ [fsgnjS, fsgnjnS, fsgnjxS, fleS, fltS, feqS, fsgnjD,
      fsgnjnD, fsgnjxD, fleD, fltD, feqD]) :
    decodeNormal arch instr = op := by
  apply Eq.trans _ (matchAndReturn_of_matches matched)
  simp only [List.mem_cons, List.not_mem_nil, or_false] at member
  rw [decodeNormal_of_float arch]
  · rcases member with rfl | rfl | rfl | rfl | rfl | rfl | rfl | rfl | rfl |
    rfl | rfl | rfl
    all_goals
      have seventh := matched.extract 25 7 rfl
      have third := matched.extract 12 3 rfl
      simp only [encoding, BitVec.reduceExtractLsb'] at seventh third
      simp only [decodeFloat, decodeFunct3, funct7, funct3, seventh, third]
  · rcases member with rfl | rfl | rfl | rfl | rfl | rfl | rfl | rfl | rfl |
    rfl | rfl | rfl
    all_goals exact matched.extract 0 7 rfl

theorem decodeNormal_floatFunct3Pair
    (member : op ∈ [fminS, fmaxS, fminD, fmaxD, fmvXW, fclassS, fmvXD,
      fclassD]) :
    decodeNormal arch instr = op := by
  apply Eq.trans _ (matchAndReturn_of_matches matched)
  simp only [List.mem_cons, List.not_mem_nil, or_false] at member
  rw [decodeNormal_of_float arch]
  · rcases member with rfl | rfl | rfl | rfl | rfl | rfl | rfl | rfl
    all_goals
      have seventh := matched.extract 25 7 rfl
      have third := matched.extract 12 3 rfl
      simp only [encoding, BitVec.reduceExtractLsb'] at seventh third
      simp only [decodeFloat, decodeFunct3Pair, funct7, funct3, seventh,
        third]
  · rcases member with rfl | rfl | rfl | rfl | rfl | rfl | rfl | rfl
    all_goals exact matched.extract 0 7 rfl

/-- `funct7` and `rs2`. -/
theorem decodeNormal_conversion
    (member : op ∈ [fcvtSW, fcvtSWu, fcvtSL, fcvtSLu, fcvtDW, fcvtDWu, fcvtDL,
      fcvtDLu, fcvtWD, fcvtWuD, fcvtLD, fcvtLuD, fcvtWS, fcvtWuS, fcvtLS,
      fcvtLuS]) :
    decodeNormal arch instr = op := by
  apply Eq.trans _ (matchAndReturn_of_matches matched)
  simp only [List.mem_cons, List.not_mem_nil, or_false] at member
  rw [decodeNormal_of_float arch]
  · rcases member with rfl | rfl | rfl | rfl | rfl | rfl | rfl | rfl | rfl |
    rfl | rfl | rfl | rfl | rfl | rfl | rfl
    all_goals
      have seventh := matched.extract 25 7 rfl
      have second := matched.extract 20 5 rfl
      simp only [encoding, BitVec.reduceExtractLsb'] at seventh second
      simp only [decodeFloat, decodeConversion, funct7, rs2, seventh, second]
  · rcases member with rfl | rfl | rfl | rfl | rfl | rfl | rfl | rfl | rfl |
    rfl | rfl | rfl | rfl | rfl | rfl | rfl
    all_goals exact matched.extract 0 7 rfl

/-- The default case of its switch: no `funct12` above starts with its
`funct7`. -/
theorem decodeNormal_sfenceVma (same : op = sfenceVma) :
    decodeNormal arch instr = op := by
  apply Eq.trans _ (matchAndReturn_of_matches matched)
  subst same
  have seventh := matched.extract 25 7 rfl
  have third := matched.extract 12 3 rfl
  change instr.funct7 = _ at seventh
  rw [funct7_of_funct12] at seventh
  rw [decodeNormal, opcode, matched.extract 0 7 rfl]
  change decodeSystem instr = _
  simp only [encoding, BitVec.reduceExtractLsb'] at third
  simp only [decodeSystem, funct3, third]
  split
  case h_7 => rfl
  all_goals
    next listed =>
      rw [listed] at seventh
      exact absurd seventh (by decide)

/-- The shifts compare the encoding of the architecture. -/
theorem decodeNormal_shift (member : op ∈ [slli, srli, srai]) :
    decodeNormal arch instr =
      matchAndReturn2 instr (op.encodingFor arch) op := by
  simp only [List.mem_cons, List.not_mem_nil, or_false] at member
  rw [decodeNormal_of_immediate arch]
  · rcases member with rfl | rfl | rfl
    all_goals
      have third := matched.extract 12 3 rfl
      have sixth := matched.extract 26 6 rfl
      simp only [encoding, BitVec.reduceExtractLsb'] at third sixth
      simp only [decodeImmediate, funct3, funct6, third, sixth]
      cases arch <;> rfl
  · rcases member with rfl | rfl | rfl
    all_goals exact matched.extract 0 7 rfl

end Complete

theorem isCustomMapping_of_customMapping? {instr : Instruction} {op : Mapping}
    (custom : instr.customMapping? = some op) : IsCustomMapping op := by
  unfold customMapping? at custom
  split at custom <;> cases custom <;> decide

theorem matches_of_encodingFor {arch : Architecture} {instr : Instruction}
    {op : Mapping} (matched : (op.encodingFor arch).Matches instr) :
    op.encoding.Matches instr := by
  cases arch with
  | rv64 =>
      have same : op.encodingFor .rv64 = op.encoding := by
        cases op <;> rfl
      rw [← same]
      exact matched
  | rv32 =>
      by_cases shift : op ∈ [slli, srli, srai]
      · simp only [List.mem_cons, List.not_mem_nil, or_false] at shift
        rcases shift with rfl | rfl | rfl
        all_goals exact Matches.weaken instr (by decide) (by decide) matched
      · have same : op.encodingFor .rv32 = op.encoding := by
          cases op <;> first | rfl | exact absurd (by decide) shift
        rw [← same]
        exact matched

/-- The switches lead a word to the mapping whose encoding it carries. -/
theorem decodeNormal_of_matches {arch : Architecture} {instr : Instruction}
    {op : Mapping} (ordinary : op.Ordinary)
    (matched : (op.encodingFor arch).Matches instr) :
    decodeNormal arch instr = op := by
  have carried := matches_of_encodingFor matched
  by_cases shift : op ∈ [slli, srli, srai]
  · rw [decodeNormal_shift arch carried shift]
    exact matchAndReturn2_of_matches matched
  · cases op
    all_goals first
      | exact absurd (by decide) shift
      | exact absurd ordinary (by decide)
      | exact decodeNormal_upper arch carried (by decide)
      | exact decodeNormal_branch arch carried (by decide)
      | exact decodeNormal_load arch carried (by decide)
      | exact decodeNormal_store arch carried (by decide)
      | exact decodeNormal_immediate arch carried (by decide)
      | exact decodeNormal_immediateWord arch carried (by decide)
      | exact decodeNormal_shiftWord arch carried (by decide)
      | exact decodeNormal_register arch carried (by decide)
      | exact decodeNormal_registerWord arch carried (by decide)
      | exact decodeNormal_fence arch carried (by decide)
      | exact decodeNormal_csr arch carried (by decide)
      | exact decodeNormal_privileged arch carried (by decide)
      | exact decodeNormal_amo arch carried (by decide)
      | exact decodeNormal_fused arch carried (by decide)
      | exact decodeNormal_floatMemory arch carried (by decide)
      | exact decodeNormal_float arch carried (by decide)
      | exact decodeNormal_floatFunct3 arch carried (by decide)
      | exact decodeNormal_floatFunct3Pair arch carried (by decide)
      | exact decodeNormal_conversion arch carried (by decide)
      | exact decodeNormal_sfenceVma arch carried rfl

/-- A decoded mapping is carried by the word, in the architecture's form. -/
theorem matches_of_decodeNormal {arch : Architecture} {instr : Instruction}
    {op : Mapping} (ordinary : op.Ordinary)
    (decoded : decodeNormal arch instr = op) :
    (op.encodingFor arch).Matches instr := by
  have carried : op.encoding.Matches instr := by
    cases custom : instr.customMapping? with
    | some other =>
        have same := (decodeNormal_of_custom arch custom).symm.trans decoded
        subst same
        exact absurd (isCustomMapping_of_customMapping? custom) ordinary.2
    | none =>
        rcases decodeNormal_spec arch custom with none | ⟨_, matched⟩
        · exact absurd (decoded.symm.trans none) ordinary.1
        · rw [decoded] at matched
          exact matched
  by_cases shift : op ∈ [slli, srli, srai]
  · rw [decodeNormal_shift arch carried shift] at decoded
    apply Decidable.byContradiction
    intro differs
    have compared : (op.encodingFor arch).mask ≠ (op.encodingFor arch).bits := by
      simp only [List.mem_cons, List.not_mem_nil, or_false] at shift
      rcases shift with rfl | rfl | rfl <;> cases arch <;> decide
    rw [matchAndReturn2, if_neg compared, if_pos differs] at decoded
    exact ordinary.1 decoded.symm
  · have same : op.encodingFor arch = op.encoding := by
      cases op <;> first | rfl | exact absurd (by decide) shift
    rw [same]
    exact carried

/-- The decoder is the table of masks and encodings, apart from the custom
opcodes: a word decodes to a mapping exactly when it carries its encoding, it
carries one encoding at most, and without one it decodes to nothing. -/
theorem decodeNormal_eq_iff (arch : Architecture) (instr : Instruction) :
    (∀ op : Mapping, op.Ordinary →
      (decodeNormal arch instr = op ↔ (op.encodingFor arch).Matches instr)) ∧
    (∀ op other : Mapping, op.Ordinary → other.Ordinary →
      (op.encodingFor arch).Matches instr →
      (other.encodingFor arch).Matches instr → op = other) ∧
    (instr.isCustom = false →
      (∀ op : Mapping, op.Ordinary → ¬ (op.encodingFor arch).Matches instr) →
      decodeNormal arch instr = .undef) := by
  refine ⟨?_, ?_, ?_⟩
  · intro op ordinary
    exact ⟨matches_of_decodeNormal ordinary, decodeNormal_of_matches ordinary⟩
  · intro op other ordinary ordinaryOther matched matchedOther
    rw [← decodeNormal_of_matches ordinary matched]
    exact decodeNormal_of_matches ordinaryOther matchedOther
  · intro plain unmatched
    have none : instr.customMapping? = none := by
      rw [isCustom_eq_isSome] at plain
      exact Option.not_isSome_iff_eq_none.mp (by simp [plain])
    apply Decidable.byContradiction
    intro decoded
    have ordinary : (decodeNormal arch instr).Ordinary := by
      refine ⟨decoded, ?_⟩
      rcases decodeNormal_spec arch none with undefined | ⟨ordinary, _⟩
      · exact absurd undefined decoded
      · exact ordinary
    exact unmatched _ ordinary (matches_of_decodeNormal ordinary rfl)

/-- The decoder of the 32-bit architecture knows the additions of the 64-bit
one; it is the hart that refuses them. -/
theorem decodeNormal_ld :
    decodeNormal .rv32 0x00003003 = .ld ∧
      ¬ Mapping.ExistsFor .rv32 .ld := by
  decide

end Instruction

end RiscvVp
