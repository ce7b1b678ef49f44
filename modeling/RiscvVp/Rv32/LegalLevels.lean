import RiscvVp.Rv32.MstatusWrite
import RiscvVp.Rv32.Platform

/-!
# Legal privilege levels

`prv` and `mpp` hold one of the three levels after reset, and every step keeps
it so unless a CSR instruction writes the reserved level to `mpp`.  The field
has two writable bits and the mask of `mstatus` lets both through, so the
exception is real; a later `MRET` then enters the reserved level.

While the two fields are legal, the simulator does not give up for want of a
known level: neither the return, the trap handler and `ECALL` nor the MMU.
-/

namespace RiscvVp

namespace Rv32

open Bits Csr Interaction

/-- `mstatus.fields.mpp` as a privilege level. -/
def Hart.mpp (hart : Hart) : PrivilegeLevel :=
  (Mstatus.mpp.get (hart.csrs .mstatus)).setWidth 32

structure LegalLevels (hart : Hart) : Prop where
  prv : hart.prv.isValid
  mpp : hart.mpp.isValid

/-- A CSR instruction that machine mode executes and that computes the reserved
level for `mpp`. -/
def ReservesMpp (decoded : Hart) : Prop :=
  decoded.prv = machineMode ∧ addressesMstatus decoded.op decoded.instr ∧
    Mstatus.mpp.get (mstatusResult decoded.op decoded.instr decoded) = 2#2

namespace LegalLevels

variable {before after hart : Hart}

theorem of_eq (legal : LegalLevels before) (prv : after.prv = before.prv)
    (mpp : Mstatus.mpp.get (after.csrs .mstatus) =
      Mstatus.mpp.get (before.csrs .mstatus)) : LegalLevels after where
  prv := prv ▸ legal.prv
  mpp := by
    have same : after.mpp = before.mpp := by rw [Hart.mpp, mpp, Hart.mpp]
    exact same ▸ legal.mpp

theorem of_steady (legal : LegalLevels before)
    (steady : Steady before after) : LegalLevels after :=
  legal.of_eq steady.prv <|
    Executed.get_eq_of_and_not (by decide) steady.mstatus

theorem interrupt (legal : LegalLevels hart) (event : InterruptEvent) :
    LegalLevels (hart.interrupt event) :=
  legal.of_steady (Steady.interrupt hart event)

/-- Two bits hold a level, or the reserved one. -/
theorem isValid_of_ne (level : BitVec 2) (unreserved : level ≠ 2#2) :
    PrivilegeLevel.isValid (level.setWidth 32) := by
  revert level
  decide

/-- A level that is saved in two bits is read back. -/
theorem isValid_saved {level : PrivilegeLevel} (valid : level.isValid) :
    PrivilegeLevel.isValid ((level.setWidth 2).setWidth 32) := by
  rcases valid with rfl | rfl | rfl <;> decide

/-- Only machine mode's handler and its return touch `mpp`. -/
theorem mpp_of_three {first second third : BitField 32}
    (disjoint : Mstatus.mpp.Disjoint first ∧ Mstatus.mpp.Disjoint second ∧
      Mstatus.mpp.Disjoint third)
    (x : BitVec first.len) (y : BitVec second.len) (z : BitVec third.len)
    (word : BitVec 32) :
    Mstatus.mpp.get (first.set x (second.set y (third.set z word))) =
      Mstatus.mpp.get word := by
  rw [BitField.get_set_of_disjoint disjoint.1,
    BitField.get_set_of_disjoint disjoint.2.1,
    BitField.get_set_of_disjoint disjoint.2.2]

theorem mpp_of_two {first second : BitField 32}
    (disjoint : Mstatus.mpp.Disjoint first ∧ Mstatus.mpp.Disjoint second)
    (x : BitVec first.len) (y : BitVec second.len) (word : BitVec 32) :
    Mstatus.mpp.get (first.set x (second.set y word)) =
      Mstatus.mpp.get word := by
  rw [BitField.get_set_of_disjoint disjoint.1,
    BitField.get_set_of_disjoint disjoint.2]

/-- The levels after an entry to a handler. -/
theorem enter {targetMode : PrivilegeLevel} (legal : LegalLevels hart)
    {entered : Hart} (enters : enter targetMode hart = some entered) :
    LegalLevels entered := by
  have target : targetMode.isValid := by
    rw [← enter_isSome_iff, enters]
    rfl
  refine ⟨prv_of_enter enters ▸ target, ?_⟩
  unfold Hart.mpp
  rcases enter_cases enters with ⟨_, rfl⟩ | ⟨_, rfl⟩ | ⟨_, rfl⟩
  · have saved : Mstatus.mpp.get ((enterMachine hart.prv
        { hart with lrScCounter := 0, prv := targetMode }).csrs .mstatus) =
          hart.prv.setWidth 2 :=
      BitField.get_set_same _ _ _
    rw [saved]
    exact isValid_saved legal.prv
  · have kept : Mstatus.mpp.get ((enterSupervisor hart.prv
        { hart with lrScCounter := 0, prv := targetMode }).csrs .mstatus) =
          Mstatus.mpp.get (hart.csrs .mstatus) :=
      mpp_of_three (by decide) _ _ _ _
    rw [kept]
    exact legal.mpp
  · have kept : Mstatus.mpp.get ((enterUser
        { hart with lrScCounter := 0, prv := targetMode }).csrs .mstatus) =
          Mstatus.mpp.get (hart.csrs .mstatus) :=
      mpp_of_two (by decide) _ _ _
    rw [kept]
    exact legal.mpp

theorem machineReturn (legal : LegalLevels hart) :
    LegalLevels (machineReturn hart) := by
  refine ⟨legal.mpp, ?_⟩
  have lowered : Mstatus.mpp.get ((Rv32.machineReturn hart).csrs .mstatus) =
      if hart.hasExtension Misa.u then 0b00 else 0b11 :=
    BitField.get_set_same _ _ _
  rw [Hart.mpp, lowered]
  split <;> decide

theorem supervisorReturn (legal : LegalLevels hart) :
    LegalLevels (supervisorReturn hart) := by
  constructor
  · change PrivilegeLevel.isValid
      ((Mstatus.spp.get (hart.csrs .mstatus)).setWidth 32)
    generalize Mstatus.spp.get (hart.csrs .mstatus) = level
    revert level
    decide
  · have kept : Mstatus.mpp.get
        ((Rv32.supervisorReturn hart).csrs .mstatus) =
          Mstatus.mpp.get (hart.csrs .mstatus) :=
      mpp_of_three (by decide) _ _ _ _
    rw [Hart.mpp, kept]
    exact legal.mpp

theorem userReturn (legal : LegalLevels hart) :
    LegalLevels (userReturn hart) := by
  refine ⟨.inr (.inr rfl), ?_⟩
  have kept : Mstatus.mpp.get ((Rv32.userReturn hart).csrs .mstatus) =
      Mstatus.mpp.get (hart.csrs .mstatus) :=
    mpp_of_two (by decide) _ _ _
  rw [Hart.mpp, kept]
  exact legal.mpp

end LegalLevels

/-- The states with legal levels, where the MMU's assertion holds. -/
def Guard.legal : Guard where
  pre := LegalLevels
  stable _ _ legal steady := legal.of_steady steady
  aborts := isServiceAbort
  listed _ listed := listed
  mode hart legal type invalid := by
    refine absurd ?_ invalid
    unfold Mmu.effectiveMode Mmu.ValidMode
    have prv := legal.prv
    have mpp := legal.mpp
    split
    · exact mpp.imp_right Or.symm
    · exact prv.imp_right Or.symm

/-! ## One step -/

/-- The outcome keeps the levels legal if the step is safe, and is none of the
two aborts in any case. -/
def KeepsLevels (safe : Prop) {α : Type}
    (outcome : Outcome Hart SimulationTrap Fatal α) : Prop :=
  (safe → ∀ after, outcome.state? = some after → LegalLevels after) ∧
    ∀ reason, outcome = .abort reason →
      reason ≠ .unknownPrivilegeLevel ∧ reason ≠ .mmuMode

namespace KeepsLevels

variable {safe : Prop} {α : Type} {after : Hart}

theorem done {value : α} (legal : safe → LegalLevels after) :
    KeepsLevels safe
      (.done value after : Outcome Hart SimulationTrap Fatal α) := by
  simpa [KeepsLevels] using legal

theorem trap {cause : SimulationTrap} (legal : safe → LegalLevels after) :
    KeepsLevels safe
      (.trap cause after : Outcome Hart SimulationTrap Fatal α) := by
  simpa [KeepsLevels] using legal

theorem abort {reason : Fatal}
    (other : reason ≠ .unknownPrivilegeLevel ∧ reason ≠ .mmuMode) :
    KeepsLevels safe
      (.abort reason : Outcome Hart SimulationTrap Fatal α) := by
  simpa [KeepsLevels] using other

theorem mono {weaker : Prop} {outcome : Outcome Hart SimulationTrap Fatal α}
    (keeps : KeepsLevels safe outcome) (implies : weaker → safe) :
    KeepsLevels weaker outcome :=
  ⟨fun holds => keeps.1 (implies holds), keeps.2⟩

end KeepsLevels

theorem isServiceAbort_ne {reason : Fatal} (service : isServiceAbort reason) :
    reason ≠ .unknownPrivilegeLevel ∧ reason ≠ .mmuMode := by
  rcases service with rfl | rfl | rfl | rfl | rfl | rfl | rfl <;>
    exact ⟨nofun, nofun⟩

section Step

variable (cfg : Config) {hart decoded : Hart}

/-- What a frame of the legal states says about the levels. -/
theorem keepsLevels_of_framed {safe : Prop} {α : Type}
    {outcome : Outcome Hart SimulationTrap Fatal α} {keepsRegs : Bool}
    (legal : LegalLevels hart)
    (within : (Guard.legal.frame keepsRegs).post hart outcome) :
    KeepsLevels safe outcome :=
  ⟨fun _ after reached => legal.of_steady (within.1 after reached).1,
    fun reason aborted => isServiceAbort_ne (within.2 reason aborted)⟩

/-- The execution of one decoded instruction. -/
theorem execute_keepsLevels (legal : LegalLevels decoded) :
    (Machine.answering (perform cfg)
      (execute cfg decoded.instr decoded.op) decoded).All
        (KeepsLevels (¬ ReservesMpp decoded)) := by
  by_cases mstatus : addressesMstatus decoded.op decoded.instr
  · refine (execute_mstatus cfg mstatus.1 mstatus.2 decoded).mono
      fun outcome written => ⟨fun unreserved after reached => ?_, ?_⟩
    · obtain ⟨prv, kept | ⟨machine, computed⟩⟩ := written.1 after reached
      · exact legal.of_eq prv kept
      · refine ⟨prv ▸ legal.prv, ?_⟩
        rw [Hart.mpp, computed]
        refine LegalLevels.isValid_of_ne _ fun reserved => unreserved ?_
        refine ⟨?_, mstatus, reserved⟩
        rcases legal.prv with level | level | level
        · exact level
        · exact absurd (level ▸ by decide) machine
        · exact absurd (level ▸ by decide) machine
    · intro reason aborted
      rw [written.2 reason aborted]
      exact ⟨nofun, nofun⟩
  cases accepted : hasCase decoded.op with
  | false =>
      rw [execute_of_not_hasCase cfg _ _ accepted, Program.all_ret]
      exact .abort ⟨nofun, nofun⟩
  | true =>
      cases returns : returnMode decoded.op with
      | none =>
          have closed (hart : Hart)
              (executed : Executed decoded.op decoded.instr decoded hart) :
              LegalLevels hart :=
            legal.of_eq executed.prv (executed.mpp mstatus)
          refine (execute_executed cfg .legal accepted returns closed).mono
            fun outcome executed => ⟨fun _ after reached => ?_, ?_⟩
          · exact closed after (executed.1 after reached)
          · intro reason aborted
            rcases executed.2 reason aborted with
              service | rfl | rfl | ⟨_, invalid⟩
            · exact isServiceAbort_ne service
            · exact ⟨nofun, nofun⟩
            · exact ⟨nofun, nofun⟩
            · exact absurd legal.prv invalid
      | some mode =>
          rcases returnMode_cases returns with op | op | op <;> rw [op]
          · rw [execute_uret, Program.all_ret]
            split
            · exact .done fun _ => legal.userReturn
            · exact .trap fun _ => legal
          · by_cases checked : decoded.sretLegal
            · rw [execute_sret_of_legal cfg _ _ checked, Program.all_ret]
              exact .done fun _ => legal.supervisorReturn
            · rw [execute_sret_of_not_legal cfg _ _ checked, Program.all_ret]
              exact .trap fun _ => legal
          · rw [execute_mret, Program.all_ret]
            exact .done fun _ => legal.machineReturn

/-- The property of a step that lets its own end take place. -/
theorem finishes_of_legal {safe : Prop} {event : StepEvent} {hart : Hart}
    (legal : safe → LegalLevels hart) :
    Finishes (KeepsLevels safe) (.done event hart) :=
  ⟨fun _ settled => .done fun holds => (legal holds).of_steady settled.steady,
    .abort ⟨nofun, nofun⟩⟩

/-- Recording a cause or a value leaves the levels alone. -/
theorem LegalLevels.setCsr (legal : LegalLevels hart) {register : Register}
    (other : register ≠ .mstatus) (word : BitVec 32) :
    LegalLevels (hart.setCsr register word) :=
  legal.of_eq rfl <| by
    rw [Hart.setCsr_csrs, CsrTable.set_of_ne _ _ other.symm]

theorem handlerOf_ne_mstatus (mode : PrivilegeLevel) :
    (handlerOf mode).cause ≠ .mstatus ∧ (handlerOf mode).tval ≠ .mstatus := by
  unfold handlerOf
  split
  · exact ⟨nofun, nofun⟩
  split
  · exact ⟨nofun, nofun⟩
  · exact ⟨nofun, nofun⟩

theorem afterInstruction_keepsLevels {safe : Prop}
    (legal : safe → LegalLevels hart) :
    AfterInstruction (KeepsLevels safe) hart := by
  intro outcome chosen
  cases chosen with
  | retired idle => exact finishes_of_legal legal
  | taken due chosen enters =>
      exact finishes_of_legal fun holds =>
        ((legal holds).setCsr (handlerOf_ne_mstatus _).1 _).enter enters
  | lost due nothing => exact .abort ⟨nofun, nofun⟩

theorem afterTrap_keepsLevels {safe : Prop} (trap : SimulationTrap)
    (legal : safe → LegalLevels hart) :
    AfterTrap (KeepsLevels safe) trap hart := by
  intro outcome handled
  cases handled with
  | taken fits enters =>
      refine finishes_of_legal fun holds => ?_
      have rewound : LegalLevels hart.rewound := (legal holds).of_eq rfl rfl
      have recorded : LegalLevels
          (recorded (handlerOf (trapTarget hart trap.reason)) trap
            hart.rewound) :=
        (rewound.setCsr (handlerOf_ne_mstatus _).1 _).setCsr
          (handlerOf_ne_mstatus _).2 _
      exact recorded.enter enters
  | badLexicalCast wide => exact .abort ⟨nofun, nofun⟩
  | delegation user elsewhere => exact .abort ⟨nofun, nofun⟩

variable {G : Type} {surroundings : Surroundings Reply G} {world : G}

/-- No instruction that the step fetches reserves `mpp`. -/
def Unreserving (cfg : Config) (surroundings : Surroundings Reply G)
    (world : G) (hart : Hart) : Prop :=
  ∀ decoded, Issues cfg surroundings world hart decoded →
    ¬ ReservesMpp decoded

/-- A step keeps the levels legal unless it reserves `mpp`, and never gives up
for want of a known level. -/
theorem runStep_keepsLevels (legal : LegalLevels hart) :
    (runStep cfg hart).Under surroundings.monitor world
      fun _ => KeepsLevels (Unreserving cfg surroundings world hart) := by
  refine runStep_under cfg hart (.abort ⟨nofun, nofun⟩)
    (fun _ => .done fun _ => legal.of_eq rfl rfl) fun begins => ?_
  refine execStep_under cfg hart.starting ?_
  have starts : LegalLevels hart.starting := legal.of_eq rfl rfl
  have issued : Machine.Framed (Guard.legal.frame true) (issue cfg) :=
    inferInstance
  rw [Program.under_iff_reachesIn]
  intro later outcome reached
  have within := (Program.all_iff_reaches _ _).1
    (issued.framed hart.starting starts) outcome reached.reaches
  have keeps : KeepsLevels True outcome := keepsLevels_of_framed starts within
  cases outcome with
  | done value decoded =>
      have legal := keeps.1 trivial decoded rfl
      refine ((execute_keepsLevels cfg legal).under _ later).mono
        fun _ outcome executed => ?_
      have executed : KeepsLevels
          (Unreserving cfg surroundings world hart) outcome :=
        executed.mono fun safe => safe decoded ⟨begins, later, reached⟩
      cases outcome with
      | done value middle =>
          exact afterInstruction_keepsLevels fun safe =>
            executed.1 safe middle rfl
      | trap trap middle =>
          exact afterTrap_keepsLevels trap fun safe =>
            executed.1 safe middle rfl
      | abort reason => exact .abort (executed.2 reason rfl)
  | trap trap middle =>
      exact afterTrap_keepsLevels trap fun _ => keeps.1 trivial middle rfl
  | abort reason => exact .abort (keeps.2 reason rfl)

/-! ## Runs -/

theorem legalLevels_of_boots (boots : Boots hart) : LegalLevels hart := by
  cases boots
  have cleared : (Mstatus.mpp.get 0#32).setWidth 32 = userMode := by decide
  exact ⟨.inl rfl, .inr (.inr cleared)⟩

/-- Both fields are legal, and the step from here is not ended by an unknown
level nor by the MMU's assertion about it. -/
def LevelsHold (cfg : Config) (surroundings : Surroundings Reply G)
    (world : G) (hart : Hart) : Prop :=
  LegalLevels hart ∧
    (runStep cfg hart).Under surroundings.monitor world fun _ outcome =>
      ∀ reason, outcome = .abort reason →
        reason ≠ .unknownPrivilegeLevel ∧ reason ≠ .mmuMode

/-- Along a run that never reserves `mpp` the levels hold. -/
theorem levelsHold_of_run
    (run : Run cfg surroundings (fun decoded => ¬ ReservesMpp decoded) world
      hart) :
    LevelsHold cfg surroundings world hart := by
  have legal : LegalLevels hart := by
    refine run.invariant (fun _ boots => legalLevels_of_boots boots)
      (fun _ event legal => legal.interrupt event)
      fun world hart legal admitted => ?_
    refine (runStep_keepsLevels cfg legal).mono
      fun _ outcome keeps event after ended => ?_
    exact keeps.1 admitted after (by rw [ended]; rfl)
  exact ⟨legal, (runStep_keepsLevels cfg legal).mono fun _ _ keeps => keeps.2⟩

instance (decoded : Hart) : Decidable (ReservesMpp decoded) :=
  inferInstanceAs (Decidable (_ ∧ (_ ∧ _) ∧ _))

/-- Set `mpp` to machine mode. -/
def setMpp : List (BitVec 32) := [0x000020b7, 0x80008093, 0x3000a073]

theorem levelsHold_setMpp :
    ∃ world hart, hart.mpp = machineMode ∧
      LevelsHold Platform.config Platform.surroundings world hart := by
  have executes : (Platform.execution
      (fun decoded => decide (¬ ReservesMpp decoded)) setMpp 3).any
        (fun reached => reached.1.mpp = machineMode) = true := by
    decide +kernel
  obtain ⟨⟨hart, world⟩, executed, mpp⟩ :=
    (Option.any_eq_true _ _).1 executes
  exact ⟨world, hart, of_decide_eq_true mpp, levelsHold_of_run _ <|
    (Platform.run_of_execution executed).mono fun _ => of_decide_eq_true⟩

/-- Write the reserved level to `mpp`, return to it and call the environment
there. -/
def returnToReserved : List (BitVec 32) :=
  [0x000010b7, 0x30009073, 0x34185073, 0x30200073, 0x00000073]

/-- The reserved level is reached, and the simulator gives up on it. -/
theorem not_levelsHold_of_reachable :
    ¬ ∀ (cfg : Config) (world : Platform) (hart : Hart),
      Reachable cfg Platform.surroundings world hart →
        LevelsHold cfg Platform.surroundings world hart := by
  intro always
  obtain ⟨world, hart, later, outcome, reachable, steps, died⟩ :=
    Platform.exists_of_nextStep returnToReserved 4 []
      (fun hart outcome =>
        match outcome with
        | .abort .unknownPrivilegeLevel => hart.prv = 2
        | _ => false) (by decide +kernel)
  have holds := always Platform.config world hart reachable
  split at died
  next =>
    exact ((Program.under_iff_reachesIn _ _ _).1 holds.2 later _ steps _
      rfl).1 rfl
  next => cases died

end Step

end Rv32

end RiscvVp
