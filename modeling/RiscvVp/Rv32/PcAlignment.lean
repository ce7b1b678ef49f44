import RiscvVp.Rv32.Footprint
import RiscvVp.Rv32.Platform
import RiscvVp.Rv32.Transfer

/-!
# The alignment of the program counter

The program counter and the three exception program counters are aligned
between steps, whatever extensions the platform has selected in `misa`, which
no instruction changes.  The `xepc` registers receive the program counter or
a masked word, the handlers lie at multiples of four, and a control transfer
to a misaligned target traps before the next instruction starts.
-/

namespace RiscvVp

namespace Rv32

open Bits Csr Interaction

/-- The exception program counters of the three modes are aligned. -/
def Hart.EpcAligned (hart : Hart) : Prop :=
  ∀ mode, hart.Aligned (hart.csrs (handlerOf mode).epc)

/-- The addresses that a hart may continue at. -/
structure PcAligned (hart : Hart) : Prop where
  pc : hart.Aligned hart.pc
  epc : hart.EpcAligned

/-- What every statement keeps of the alignment. -/
structure Located (before after : Hart) : Prop where
  lastPc : after.lastPc = before.lastPc
  misa : after.csrs .misa = before.csrs .misa
  epc : before.EpcAligned → after.EpcAligned

theorem aligned_congr {before after : Hart}
    (misa : after.csrs .misa = before.csrs .misa) (addr : BitVec 32) :
    after.Aligned addr ↔ before.Aligned addr := by
  rw [Hart.Aligned, Hart.Aligned, Hart.pcAlignmentMask, Hart.pcAlignmentMask,
    Hart.hasExtension, Hart.hasExtension, misa]

namespace Located

variable {before after : Hart}

theorem refl (hart : Hart) : Located hart hart := ⟨rfl, rfl, id⟩

theorem trans {first second third : Hart} (left : Located first second)
    (right : Located second third) : Located first third where
  lastPc := right.lastPc.trans left.lastPc
  misa := right.misa.trans left.misa
  epc := right.epc ∘ left.epc

/-- The registers that matter are kept. -/
theorem of_kept (lastPc : after.lastPc = before.lastPc)
    (misa : after.csrs .misa = before.csrs .misa)
    (epc : ∀ mode, after.csrs (handlerOf mode).epc =
      before.csrs (handlerOf mode).epc) : Located before after where
  lastPc := lastPc
  misa := misa
  epc aligned mode := by
    rw [aligned_congr misa, epc mode]
    exact aligned mode

theorem of_csrs (lastPc : after.lastPc = before.lastPc)
    (csrs : after.csrs = before.csrs) : Located before after :=
  of_kept lastPc (by rw [csrs]) fun _ => by rw [csrs]

/-- The exception program counters are not volatile. -/
theorem epc_not_isVolatile (mode : PrivilegeLevel) :
    (handlerOf mode).epc.isVolatile = false := by
  unfold handlerOf
  split
  · rfl
  split <;> rfl

theorem of_steady (steady : Steady before after) : Located before after :=
  of_kept steady.lastPc (steady.csr .misa rfl) fun mode =>
    steady.csr _ (epc_not_isVolatile mode)

end Located

/-! ## CSR writes -/

section Writes

variable {addr value : BitVec 32} {hart after : Hart}

theorem Csr.Writes.misa (writes : Writes addr value hart after) :
    after.csrs .misa = hart.csrs .misa := by
  have guarded : Register.isGuarded .misa = true := rfl
  rcases writes.of_guarded guarded nofun with
    kept | ⟨mask, access, _⟩
  · exact kept
  · rcases masked_cases access with ⟨unguarded, _⟩ | ⟨same | same, _⟩ |
      ⟨same, _⟩
    · cases unguarded
    all_goals cases same

/-- The registers that only `.exceptionPc` writes. -/
def isEpc : Register → Bool
  | .mepc | .sepc | .uepc => true
  | _ => false

theorem isEpc_handlerOf (mode : PrivilegeLevel) :
    isEpc (handlerOf mode).epc = true := by
  unfold handlerOf
  split
  · rfl
  split <;> rfl

theorem masked_not_isEpc {register : Register} {mask : BitVec 32}
    (access : writeAccess addr = .masked register mask) :
    isEpc register = false := by
  unfold writeAccess at access
  split at access
  case h_29 =>
    split at access
    · cases access
    split at access
    · cases access
    · cases access
  all_goals
    first
    | (cases access; done)
    | (cases access; rfl)

theorem default_not_isEpc (access : writeAccess addr = .default)
    {register : Register} (mapped : registerMapping addr = some register) :
    isEpc register = false := by
  unfold registerMapping at mapped
  split at mapped
  case h_45 =>
    split at mapped
    · cases mapped
      rfl
    split at mapped
    · cases mapped
      rfl
    · cases mapped
  all_goals
    cases mapped
    first
    | rfl
    | nomatch access

/-- An exception program counter is written through the mask, or not at
all. -/
theorem Csr.Writes.epc (writes : Writes addr value hart after)
    {register : Register} (epc : isEpc register = true) :
    after.csrs register = hart.csrs register ∨
      after.csrs register =
        writeMasked (hart.csrs register) value hart.pcAlignmentMask := by
  have other {written : Register} (word : BitVec 32)
      (outside : isEpc written = false) :
      (hart.setCsr written word).csrs register = hart.csrs register := by
    apply CsrTable.set_of_ne
    rintro rfl
    rw [outside] at epc
    cases epc
  cases writes with
  | ignored access => exact .inl rfl
  | masked access => exact .inl (other _ (masked_not_isEpc access))
  | @exceptionPc written access =>
      by_cases same : register = written
      · subst same
        exact .inr (CsrTable.set_same _ _ _)
      · exact .inl (CsrTable.set_of_ne _ _ same)
  | field access =>
      obtain rfl := field_cases access
      exact .inl (other _ rfl)
  | satp access => exact .inl (other _ rfl)
  | default access mapped =>
      exact .inl (other _ (default_not_isEpc access mapped))

theorem Located.of_writes (writes : Writes addr value hart after) :
    Located hart after where
  lastPc := writes.lastPc
  misa := writes.misa
  epc aligned mode := by
    rw [aligned_congr writes.misa]
    rcases writes.epc (isEpc_handlerOf mode) with kept | masked
    · rw [kept]
      exact aligned mode
    · rw [masked]
      apply Within.writeMasked
      · exact aligned mode
      · exact (within_iff _ _).2 fun _ bit => bit

end Writes

/-! ## The frame -/

/-- The two assertions about the alignment of the program counter. -/
def isAlignmentAbort (reason : Fatal) : Prop :=
  reason = .misalignedInstruction ∨ reason = .oddPc

/-- The frame of the statements that keep the alignment. -/
def locating (keepsPc : Bool) : Frame Hart Fatal where
  pre _ := True
  related before after :=
    Located before after ∧ (keepsPc = true → after.pc = before.pc)
  refl hart := ⟨.refl hart, fun _ => rfl⟩
  trans left right :=
    ⟨left.1.trans right.1, fun keeps => (right.2 keeps).trans (left.2 keeps)⟩
  stable _ _ := trivial
  aborts reason := ¬ isAlignmentAbort reason

instance (keepsPc : Bool) : Supplies (locating keepsPc) where
  tlb _ _ _ := ⟨.of_csrs rfl rfl, fun _ => rfl⟩
  lrAddr _ _ _ := ⟨.of_csrs rfl rfl, fun _ => rfl⟩
  interrupt event hart _ :=
    ⟨.of_steady (.interrupt hart event), fun _ => hart.interrupt_pc event⟩
  listed reason member := by
    rintro (rfl | rfl) <;> simp at member
  mode _ _ _ _ := by
    rintro (same | same) <;> cases same
  time value hart _ :=
    ⟨.of_steady (.set64 hart value (.inl rfl) (.inl rfl)), fun _ => rfl⟩
  cycle value hart _ :=
    ⟨.of_steady (.set64 hart value (.inr (.inl rfl)) (.inr (.inl rfl))),
      fun _ => rfl⟩
  pipeline _ _ _ := ⟨.of_csrs rfl rfl, fun _ => rfl⟩
  pending := by
    rintro (same | same) <;> cases same
  syscall := by
    rintro (same | same) <;> cases same

/-- An assignment to what has nothing to do with control. -/
theorem locating_modifies {keepsPc : Bool} {update : Hart → Hart}
    (steady : ∀ hart, Steady hart (update hart))
    (pc : keepsPc = true → ∀ hart, (update hart).pc = hart.pc) :
    Machine.Framed (locating keepsPc)
      (Machine.modifies update : HartM Unit) :=
  Machine.Framed.modifies fun hart _ =>
    ⟨.of_steady (steady hart), fun keeps => pc keeps hart⟩

theorem fpSetDirty_pc (hart : Hart) : hart.fpSetDirty.pc = hart.pc := rfl

theorem fpUpdateExceptionFlags_pc (hart : Hart) :
    hart.fpUpdateExceptionFlags.pc = hart.pc := by
  rw [Hart.fpUpdateExceptionFlags]
  split <;> rfl

/-- An action of an instruction that is neither a transfer nor a return. -/
theorem perform_located (cfg : Config) {op : Mapping} {instr : Instruction}
    (stays : isTransfer op = false) (notReturn : returnMode op = none)
    {action : Action} (permitted : mayPerform op instr action) :
    Machine.Framed (locating true) (perform cfg action) := by
  cases action with
  | setPc value =>
      rw [mayPerform, stays] at permitted
      cases permitted
  | returnFromTrapHandler mode =>
      rw [mayPerform, notReturn] at permitted
      cases permitted
  | fatal reason =>
      apply Machine.Framed.abort
      rcases permitted with ⟨_, transfers⟩ | ⟨rfl, _⟩ | ⟨rfl, _⟩
      · rw [stays] at transfers
        cases transfers
      · rintro (same | same) <;> cases same
      · rintro (same | same) <;> cases same
  | setCsrValue addr value =>
      constructor
      intro hart _
      rw [perform]
      rcases setCsrValue_outcome addr value hart with
        ⟨after, equation, writes⟩ | ⟨trap, equation, _⟩
      · rw [equation, Program.all_ret, Frame.post_done]
        refine ⟨.of_writes writes, fun _ => ?_⟩
        rcases writes.changes_one with rfl | ⟨register, word, rfl⟩ <;> rfl
      · rw [equation, Program.all_ret, Frame.post_trap]
        exact (locating true).refl hart
  | releaseLrScReservation =>
      exact releaseLrScReservation_framed fun _ _ =>
        ⟨.of_csrs rfl rfl, fun _ => rfl⟩
  | executeSyscall =>
      exact executeSyscall_framed
        (fun _ _ _ => ⟨.of_csrs rfl rfl, fun _ => rfl⟩)
        fun _ _ => ⟨.of_csrs rfl rfl, fun _ => rfl⟩
  | setReg | setFpReg | setLrScCounter | hitBreakpoint | raiseFlags
  | setRoundingMode =>
      exact locating_modifies (fun _ => .of_csrs rfl rfl rfl)
        fun _ _ => rfl
  | fpSetDirty =>
      exact locating_modifies Steady.fpSetDirty fun _ => fpSetDirty_pc
  | fpUpdateExceptionFlags =>
      exact locating_modifies Steady.fpUpdateExceptionFlags
        fun _ => fpUpdateExceptionFlags_pc
  | _ => exact perform_service cfg rfl

/-- The body of such an instruction leaves the program counter alone. -/
theorem execute_located (cfg : Config) {op : Mapping} (instr : Instruction)
    (accepted : hasCase op = true) (stays : isTransfer op = false)
    (notReturn : returnMode op = none) :
    Machine.Framed (locating true)
      (Machine.answering (perform cfg) (execute cfg instr op)) :=
  Machine.Framed.answering_of_asks (perform cfg)
    (fun _ permitted => perform_located cfg stays notReturn permitted)
    (execute_withinFootprint cfg instr accepted)

/-! ## Execution -/

/-- The alignment survives the outcome of an instruction. -/
def Survives (before : Hart) : Outcome Hart SimulationTrap Fatal Unit → Prop
  | .done _ after => Located before after ∧ PcAligned after
  | .trap _ after => Located before after
  | .abort reason => ¬ isAlignmentAbort reason

/-- A decoded instruction, whose own address is aligned.  The address after it
is aligned as well, unless nothing will be executed. -/
structure Decoded (hart : Hart) : Prop where
  lastPc : hart.Aligned hart.lastPc
  epc : hart.EpcAligned
  pc : hart.op = .undef ∨ hart.Aligned hart.pc

section Execute

variable (cfg : Config) {decoded : Hart}

theorem survives_transfer (ready : Decoded decoded)
    (transfers : isTransfer decoded.op = true) :
    (Machine.answering (perform cfg)
      (execute cfg decoded.instr decoded.op) decoded).All
        (Survives decoded) := by
  have unmoved {after : Hart} (unmoved : Unmoved decoded after) :
      Located decoded after :=
    .of_csrs unmoved.lastPc unmoved.csrs
  have settles {after : Hart} (kept : Unmoved decoded after)
      (aligned : decoded.Aligned after.pc) : PcAligned after :=
    ⟨(aligned_congr (unmoved kept).misa _).2 aligned,
      (unmoved kept).epc ready.epc⟩
  refine (execute_transfer cfg transfers
    (Hart.even_of_aligned ready.lastPc)).mono fun outcome ends => ?_
  split at ends
  next target _ =>
    cases ends with
    | arrived aligned pc kept =>
        exact ⟨unmoved kept, settles kept (pc ▸ aligned)⟩
    | refused misaligned kept => exact unmoved kept
  next =>
    obtain ⟨after, rfl, pc, kept⟩ := ends
    refine ⟨unmoved kept, settles kept ?_⟩
    rw [pc]
    rcases ready.pc with undef | aligned
    · rw [undef] at transfers
      cases transfers
    · exact aligned

/-- A return continues at an exception program counter. -/
theorem pcAligned_of_return {hart after : Hart} (epc : hart.EpcAligned)
    (mode : PrivilegeLevel) (word : BitVec 32)
    (pc : after.pc = hart.csrs (handlerOf mode).epc)
    (lastPc : after.lastPc = hart.lastPc)
    (csrs : after.csrs = hart.csrs.set .mstatus word) :
    Located hart after ∧ PcAligned after := by
  have other (register : Register) (distinct : register ≠ .mstatus) :
      after.csrs register = hart.csrs register := by
    rw [csrs]
    exact CsrTable.set_of_ne _ _ distinct
  have located : Located hart after := by
    refine .of_kept lastPc (other .misa nofun) fun mode => other _ ?_
    intro same
    have epc := isEpc_handlerOf mode
    rw [same] at epc
    cases epc
  refine ⟨located, ?_, located.epc epc⟩
  rw [pc, aligned_congr located.misa]
  exact epc mode

theorem survives_return (ready : Decoded decoded)
    {mode : PrivilegeLevel} (returns : returnMode decoded.op = some mode) :
    (Machine.answering (perform cfg)
      (execute cfg decoded.instr decoded.op) decoded).All
        (Survives decoded) := by
  rcases returnMode_cases returns with op | op | op <;> rw [op]
  · rw [execute_uret, Program.all_ret]
    split
    · exact pcAligned_of_return ready.epc userMode _ rfl rfl rfl
    · exact .refl decoded
  · by_cases checked : decoded.sretLegal
    · rw [execute_sret_of_legal cfg _ _ checked, Program.all_ret]
      exact pcAligned_of_return ready.epc supervisorMode _ rfl rfl rfl
    · rw [execute_sret_of_not_legal cfg _ _ checked, Program.all_ret]
      exact .refl decoded
  · rw [execute_mret, Program.all_ret]
    exact pcAligned_of_return ready.epc machineMode _ rfl rfl rfl

/-- What has been decoded leaves the alignment intact. -/
theorem execute_survives (ready : Decoded decoded) :
    (Machine.answering (perform cfg)
      (execute cfg decoded.instr decoded.op) decoded).All
        (Survives decoded) := by
  cases transfers : isTransfer decoded.op with
  | true => exact survives_transfer cfg ready transfers
  | false =>
  cases returns : returnMode decoded.op with
  | some mode => exact survives_return cfg ready returns
  | none =>
  cases accepted : hasCase decoded.op with
  | false =>
      rw [execute_of_not_hasCase cfg _ _ accepted]
      rintro (same | same) <;> cases same
  | true =>
      rcases ready.pc with undef | aligned
      · rw [undef]
        exact Located.refl decoded
      · refine ((execute_located cfg decoded.instr accepted transfers
          returns).framed decoded trivial).mono fun outcome within => ?_
        cases outcome with
        | done value after =>
            obtain ⟨located, pc⟩ := (Frame.post_done _ _ _ _).1 within
            refine ⟨located, ?_, located.epc ready.epc⟩
            rw [pc rfl, aligned_congr located.misa]
            exact aligned
        | trap cause after => exact ((Frame.post_trap _ _ _ _).1 within).1
        | abort reason => exact (Frame.post_abort _ _ _).1 within

end Execute

/-! ## Fetch and decode -/

section Issue

variable (cfg : Config) {hart : Hart}

instance : Machine.Framed (locating true) (fetch cfg) := by
  have forgets : Machine.Framed (locating true)
      (Machine.modifies fun hart => { hart with op := .undef, instr := 0 } :
        HartM Unit) :=
    locating_modifies (fun _ => .of_csrs rfl rfl rfl) fun _ _ => rfl
  have keeps (word : BitVec 32) : Machine.Framed (locating true)
      (Machine.modifies fun hart => { hart with instr := word } :
        HartM Unit) :=
    locating_modifies (fun _ => .of_csrs rfl rfl rfl) fun _ _ => rfl
  unfold fetch
  infer_instance

/-- The outcome of the decoder, and of all that comes before the switch. -/
def Issued (before : Hart) : Outcome Hart SimulationTrap Fatal Unit → Prop
  | .done _ after => Located before after ∧ Decoded after
  | .trap _ after => Located before after
  | .abort reason => ¬ isAlignmentAbort reason

/-- The decoder steps past the instruction.  It steps by two without the C
extension only for what it could not decode. -/
theorem decode_all (aligned : PcAligned hart)
    (lastPc : hart.lastPc = hart.pc) : (decode hart).All (Issued hart) := by
  have start : hart.Aligned hart.lastPc := lastPc ▸ aligned.pc
  have four (op : Mapping) :
      Located hart { hart with op := op, pc := hart.pc + 4 } ∧
        Decoded { hart with op := op, pc := hart.pc + 4 } :=
    ⟨.of_csrs rfl rfl, start, aligned.epc, .inr aligned.pc.add_four⟩
  unfold decode
  rw [Machine.all_bind, Machine.reads_apply, Program.all_ret]
  dsimp only
  rw [Machine.ite_apply]
  split
  · rw [Machine.modifies_apply, Program.all_ret]
    exact four _
  rw [Machine.ite_apply]
  split
  · cases Instruction.decodeAndExpandCompressed .rv32 hart.instr with
    | none => rintro (same | same) <;> cases same
    | some expansion =>
      obtain ⟨op, expanded⟩ := expansion
      dsimp only
      have located : Located hart
          { hart with instr := expanded, op := op, pc := hart.pc + 2 } :=
        .of_csrs rfl rfl
      rw [Machine.all_bind, Machine.modifies_apply, Program.all_ret]
      dsimp only
      rw [Machine.all_bind, Machine.reads_apply, Program.all_ret]
      dsimp only [id]
      rw [Machine.ite_apply]
      split
      · exact located
      next accepted =>
        refine ⟨located, start, aligned.epc, ?_⟩
        rw [not_and_or, Decidable.not_not] at accepted
        rcases accepted with undef | compressed
        · exact .inl undef
        · have extension : hart.hasExtension Misa.c = true := by
            rw [Bool.not_eq_true', Bool.not_eq_false] at compressed
            exact compressed
          exact .inr (aligned.pc.add_two extension)
  · rw [Machine.modifies_apply, Program.all_ret]
    exact four _

theorem issue_all (aligned : PcAligned hart)
    (lastPc : hart.lastPc = hart.pc) :
    (issue cfg hart).All (Issued hart) := by
  have passes : (hart.pc &&& ~~~hart.pcAlignmentMask == 0) = true := by
    simpa [Hart.Aligned, Within] using aligned.pc
  have fetches : Machine.Framed (locating true) (fetch cfg) := inferInstance
  unfold issue
  rw [Machine.all_bind, Machine.reads_apply, Program.all_ret]
  dsimp only [id]
  rw [passes, Machine.assert_true, Machine.all_bind, Machine.pure_apply,
    Program.all_ret]
  dsimp only
  rw [Machine.all_bind]
  refine (fetches.framed hart trivial).mono fun outcome within => ?_
  cases outcome with
  | done value fetched =>
      obtain ⟨located, pc⟩ := (Frame.post_done _ _ _ _).1 within
      have ready : PcAligned fetched := by
        refine ⟨?_, located.epc aligned.epc⟩
        rw [pc rfl, aligned_congr located.misa]
        exact aligned.pc
      have same : fetched.lastPc = fetched.pc := by
        rw [located.lastPc, pc rfl, lastPc]
      refine (decode_all ready same).mono fun last issued => ?_
      cases last with
      | done value after => exact ⟨located.trans issued.1, issued.2⟩
      | trap cause after => exact located.trans issued
      | abort reason => exact issued
  | trap cause after => exact ((Frame.post_trap _ _ _ _).1 within).1
  | abort reason => exact (Frame.post_abort _ _ _).1 within

end Issue

/-! ## Steps -/

section Step

variable {hart entered : Hart}

/-- Recording a cause or a trap value touches no exception program
counter. -/
theorem located_record (mode : PrivilegeLevel) (word : BitVec 32) :
    Located hart (hart.setCsr (handlerOf mode).cause word) ∧
      Located hart (hart.setCsr (handlerOf mode).tval word) := by
  have other (register : Register) (outside : isEpc register = false)
      (notMisa : Register.misa ≠ register) :
      Located hart (hart.setCsr register word) := by
    refine .of_kept rfl (CsrTable.set_of_ne _ _ notMisa) fun mode => ?_
    apply CsrTable.set_of_ne
    intro same
    have epc := isEpc_handlerOf mode
    rw [same, outside] at epc
    cases epc
  unfold handlerOf
  split
  · exact ⟨other _ rfl nofun, other _ rfl nofun⟩
  split
  · exact ⟨other _ rfl nofun, other _ rfl nofun⟩
  · exact ⟨other _ rfl nofun, other _ rfl nofun⟩

/-- The entry to a handler saves an aligned program counter and continues at a
multiple of four. -/
theorem PcAligned.enter {mode : PrivilegeLevel} (aligned : PcAligned hart)
    (enters : enter mode hart = some entered) : PcAligned entered := by
  have continues : entered.pc.toNat % 4 = 0 := by
    rw [atHandler_of_enter enters]
    exact handlerAddress_toNat_mod _ _
  have misa : entered.csrs .misa = hart.csrs .misa := by
    rcases enter_cases enters with ⟨_, rfl⟩ | ⟨_, rfl⟩ | ⟨_, rfl⟩ <;> rfl
  have saved (register : Register) (epc : isEpc register = true) :
      entered.csrs register = hart.csrs register ∨
        entered.csrs register = hart.pc := by
    rcases enter_cases enters with ⟨_, rfl⟩ | ⟨_, rfl⟩ | ⟨_, rfl⟩ <;>
      cases register <;>
        first
        | exact .inl rfl
        | exact .inr rfl
        | cases epc
  refine ⟨Hart.aligned_of_word continues, fun other => ?_⟩
  rw [aligned_congr misa]
  rcases saved _ (isEpc_handlerOf other) with kept | pc
  · rw [kept]
    exact aligned.epc other
  · rw [pc]
    exact aligned.pc

theorem PcAligned.of_located {after : Hart} (aligned : PcAligned hart)
    (located : Located hart after) (pc : after.pc = hart.pc) :
    PcAligned after := by
  refine ⟨?_, located.epc aligned.epc⟩
  rw [pc, aligned_congr located.misa]
  exact aligned.pc

/-- The outcome of a step. -/
def StepAligned : Outcome Hart SimulationTrap Fatal StepEvent → Prop
  | .done _ after => PcAligned after
  | .trap _ _ => True
  | .abort reason => ¬ isAlignmentAbort reason

theorem finishes_of_pcAligned (event : StepEvent) (aligned : PcAligned hart) :
    Finishes StepAligned (.done event hart) := by
  refine ⟨fun after settled => ?_, ?_⟩
  · exact aligned.of_located (.of_steady settled.steady) settled.pc
  · rintro (same | same) <;> cases same

theorem afterInstruction_of_pcAligned (aligned : PcAligned hart) :
    AfterInstruction StepAligned hart := by
  intro outcome choice
  cases choice with
  | retired idle => exact finishes_of_pcAligned _ aligned
  | taken due chosen enters =>
      apply finishes_of_pcAligned
      exact (aligned.of_located (located_record _ _).1 rfl).enter enters
  | lost due nothing => rintro (same | same) <;> cases same

/-- A trap puts the program counter back at the instruction. -/
theorem afterTrap_of_epcAligned (trap : SimulationTrap)
    (lastPc : hart.Aligned hart.lastPc) (epc : hart.EpcAligned) :
    AfterTrap StepAligned trap hart := by
  have rewound : PcAligned hart.rewound := ⟨lastPc, epc⟩
  intro outcome handling
  cases handling with
  | taken fits enters =>
      apply finishes_of_pcAligned
      have noted : PcAligned (recorded
          (handlerOf (trapTarget hart trap.reason)) trap hart.rewound) :=
        (rewound.of_located (located_record _ _).1 rfl).of_located
          (located_record _ _).2 rfl
      exact noted.enter enters
  | badLexicalCast wide => rintro (same | same) <;> cases same
  | delegation user elsewhere => rintro (same | same) <;> cases same

/-- A step from an aligned state leads to an aligned state, and neither
assertion fails in it. -/
theorem runStep_pcAligned {G : Type} (cfg : Config)
    (surroundings : Surroundings Reply G) (world : G)
    (aligned : PcAligned hart) :
    (runStep cfg hart).Under surroundings.monitor world
      fun _ => StepAligned := by
  have starts : PcAligned hart.starting := ⟨aligned.pc, aligned.epc⟩
  have trapped {after : Hart} (trap : SimulationTrap)
      (located : Located hart.starting after) :
      AfterTrap StepAligned trap after := by
    refine afterTrap_of_epcAligned trap ?_ (located.epc starts.epc)
    rw [located.lastPc, aligned_congr located.misa]
    exact starts.pc
  refine runStep_under cfg hart ?_ (fun _ => ?_) fun _ => ?_
  · rintro (same | same) <;> cases same
  · exact ⟨aligned.pc, aligned.epc⟩
  refine Program.All.under surroundings ?_ world
  unfold execStep
  rw [Machine.all_bind]
  refine (issue_all cfg starts rfl).mono fun outcome issued => ?_
  cases outcome with
  | done value decoded =>
      refine (execute_survives cfg issued.2).mono fun last survives => ?_
      cases last with
      | done value after => exact afterInstruction_of_pcAligned survives.2
      | trap trap after => exact trapped trap (issued.1.trans survives)
      | abort reason => exact survives
  | trap trap after => exact trapped trap issued
  | abort reason => exact issued

end Step

/-! ## Runs -/

section Run

variable {G : Type} (cfg : Config) (surroundings : Surroundings Reply G)

/-- The states of a run on a platform that has chosen the extensions in `misa`
and an entry point that is aligned under that choice. -/
inductive ConfiguredRun : G → Hart → Prop
  | boot (world : G) {hart : Hart} (boots : Boots hart) (misa : BitVec 32)
      (aligned : (hart.setCsr .misa misa).Aligned hart.pc) :
      ConfiguredRun world (hart.setCsr .misa misa)
  | interrupted {world : G} {hart : Hart} (event : InterruptEvent)
      (run : ConfiguredRun world hart) :
      ConfiguredRun world (hart.interrupt event)
  | step {world later : G} {hart after : Hart} {event : StepEvent}
      (run : ConfiguredRun world hart)
      (steps : (runStep cfg hart).ReachesIn surroundings world later
        (.done event after)) :
      ConfiguredRun later after

variable {cfg surroundings} {world : G} {hart : Hart}

theorem pcAligned_of_configuredRun
    (run : ConfiguredRun cfg surroundings world hart) : PcAligned hart := by
  induction run with
  | boot world boots misa aligned =>
      refine ⟨aligned, fun mode => ?_⟩
      cases boots with
      | reset =>
          unfold handlerOf
          split
          · exact Hart.aligned_of_word rfl
          split
          · exact Hart.aligned_of_word rfl
          · exact Hart.aligned_of_word rfl
  | interrupted event run inductionHypothesis =>
      exact inductionHypothesis.of_located (.of_steady (.interrupt _ event))
        (Hart.interrupt_pc _ event)
  | step run steps inductionHypothesis =>
      exact (Program.under_iff_reachesIn _ _ _).1
        (runStep_pcAligned cfg surroundings _ inductionHypothesis) _ _ steps

/-- What is asked of a state: the program counter is aligned when `exec_step`
starts, neither assertion about it fails, and a control transfer goes to its
target exactly when that is aligned and raises the misaligned trap when it is
not. -/
structure KeepsPcAligned (cfg : Config) (surroundings : Surroundings Reply G)
    (world : G) (hart : Hart) : Prop where
  starts : hart.pc &&& ~~~hart.pcAlignmentMask = 0
  asserts : (runStep cfg hart).Under surroundings.monitor world
    fun _ outcome =>
      outcome ≠ .abort .misalignedInstruction ∧ outcome ≠ .abort .oddPc
  transfers : ∀ later decoded target, hart.begins →
    (issue cfg hart.starting).ReachesIn surroundings world later
      (.done () decoded) →
    decoded.transferTarget = some target →
      (executeDecoded cfg decoded).Under surroundings.monitor later
        fun _ outcome =>
          if decoded.Aligned target then
            ∃ after, outcome = .done () after ∧ after.pc = target
          else ∃ after, outcome =
            .trap ⟨.instrAddrMisaligned, target.setWidth 64⟩ after

/-- A target belongs to a control transfer. -/
theorem isTransfer_of_transferTarget {decoded : Hart} {target : BitVec 32}
    (transfers : decoded.transferTarget = some target) :
    isTransfer decoded.op = true := by
  unfold Hart.transferTarget at transfers
  cases op : decoded.op with
  | beq | bne | blt | bge | bltu | bgeu | jal | jalr => rfl
  | _ =>
      rw [op] at transfers
      cases transfers

/-- In every state of every run the program counter is aligned, the
assertions hold and misaligned transfers trap. -/
theorem keepsPcAligned_of_run
    (run : ConfiguredRun cfg surroundings world hart) :
    KeepsPcAligned cfg surroundings world hart := by
  have aligned := pcAligned_of_configuredRun run
  refine ⟨aligned.pc, ?_, ?_⟩
  · refine (runStep_pcAligned cfg surroundings world aligned).mono
      fun _ outcome kept => ?_
    constructor
    · rintro rfl
      exact kept (.inl rfl)
    · rintro rfl
      exact kept (.inr rfl)
  · intro later decoded target _ issued transfers
    have starts : PcAligned hart.starting := ⟨aligned.pc, aligned.epc⟩
    have ready : Located hart.starting decoded ∧ Decoded decoded :=
      (Program.all_iff_reaches _ _).1 (issue_all cfg starts rfl) _
        issued.reaches
    refine Program.All.under surroundings ?_ later
    refine (execute_transfer cfg (isTransfer_of_transferTarget transfers)
      (Hart.even_of_aligned ready.2.lastPc)).mono fun outcome ends => ?_
    rw [transfers] at ends
    cases ends with
    | arrived aligned pc _ =>
        rw [if_pos aligned]
        exact ⟨_, rfl, pc⟩
    | refused misaligned _ =>
        rw [if_neg misaligned]
        exact ⟨_, rfl⟩

end Run

/-! ## A run without compressed instructions -/

theorem configuredRun_of_steps {admits : Hart → Bool} {cfg : Config}
    {count : Nat} {hart last : Hart} {platform later : Platform}
    (taken : Platform.steps admits cfg count hart platform =
      some (last, later))
    (run : ConfiguredRun cfg Platform.surroundings platform hart) :
    ConfiguredRun cfg Platform.surroundings later last := by
  induction count generalizing hart platform with
  | zero =>
      cases taken
      exact run
  | succ count inductionHypothesis =>
      unfold Platform.steps at taken
      split at taken
      next event after between ran =>
        split at taken
        next =>
          exact inductionHypothesis taken <|
            .step run ((Program.reachesIn_of _ _ _ _ _).2 ran)
        next => cases taken
      next => cases taken

/-- Jump to the middle of a word, and have the handler return behind the
jump. -/
def jumpToHalfword : List (BitVec 32) :=
  [0x30585073, 0x0060006f, 0x00000013, 0x00000013, 0x34145073, 0x30200073]

/-- The jump has trapped, and its handler has returned. -/
theorem keepsPcAligned_jumpToHalfword :
    ∃ world hart,
      ConfiguredRun Platform.config Platform.surroundings world hart ∧
      hart.hasExtension Misa.c = false ∧ hart.csrs .mepc = 8 ∧ hart.pc = 12 ∧
      KeepsPcAligned Platform.config Platform.surroundings world hart := by
  have executes : (Platform.steps (fun _ => true) Platform.config 5
      ((Hart.reset 0 false 0 0x1000).setCsr .misa (Misa.init &&& ~~~Misa.c))
      (Platform.ofWords jumpToHalfword)).any (fun reached =>
        !reached.1.hasExtension Misa.c && reached.1.csrs .mepc == 8 &&
          reached.1.pc == 12) = true := by
    decide +kernel
  obtain ⟨⟨hart, world⟩, taken, stands⟩ :=
    (Option.any_eq_true _ _).1 executes
  simp only [Bool.and_eq_true, Bool.not_eq_true', beq_iff_eq] at stands
  have run := configuredRun_of_steps taken <|
    .boot _ (.reset 0 false 0 0x1000 false false fun _ => false) _ (by decide)
  exact ⟨world, hart, run, stands.1.1, stands.1.2, stands.2,
    keepsPcAligned_of_run run⟩

end Rv32

end RiscvVp
