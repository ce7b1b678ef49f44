import Mathlib
import RiscvVp.Rv32.Platform

/-!
# Privilege escalation

A step may raise the privilege level by entering a trap handler, at the
address that the handler's own mode set up.  It may also raise it by a return
instruction, because `MRET` is not checked at all and `SRET` is checked only
for the extension and for `tsr`.  This second way is the only other one: a
step is free of escalation exactly when no instruction it can fetch is a
return that raises the level.
-/

namespace RiscvVp

namespace Rv32

open Csr Interaction

/-! ## Escalation -/

/-- The decoded instruction is a return that raises the privilege level: an
`MRET` below `mpp`, or an `SRET` that passes its checks below `spp`. -/
def Escalates (hart : Hart) : Prop :=
  (hart.op = .mret ∧
    hart.prv < (Mstatus.mpp.get (hart.csrs .mstatus)).setWidth 32) ∨
  (hart.op = .sret ∧ hart.sretLegal ∧
    hart.prv < (Mstatus.spp.get (hart.csrs .mstatus)).setWidth 32)

/-- The step entered a trap handler. -/
def StepEvent.entersHandler : StepEvent → Prop
  | .interrupted _ | .trapped _ _ => True
  | .hitBreakpoint | .retired => False

/-- A step that started at the level `prv` ends at a higher one only in a
handler, at its entry address. -/
def EscalationFree (prv : PrivilegeLevel)
    (outcome : Outcome Hart SimulationTrap Fatal StepEvent) : Prop :=
  ∀ event after, outcome = .done event after → prv < after.prv →
    event.entersHandler ∧ after.atHandler

namespace EscalationFree

variable {prv : PrivilegeLevel}

theorem done {event : StepEvent} {after : Hart}
    (enters : prv < after.prv → event.entersHandler ∧ after.atHandler) :
    EscalationFree prv (.done event after) := by
  rintro event' after' ⟨⟩
  exact enters

theorem abort (reason : Fatal) : EscalationFree prv (.abort reason) := by
  intro event' after' contradiction
  cases contradiction

end EscalationFree

/-- However the step ends, a higher privilege level comes from a trap or an
interrupt and the hart is at the entry address of its new mode; and no return
instruction leaves the hart at a higher level than the one it was executed
at. -/
def NoEscalation {G : Type} (cfg : Config)
    (surroundings : Surroundings Reply G) (world : G) (hart : Hart) : Prop :=
  ((runStep cfg hart).Under surroundings.monitor world
    fun _ => EscalationFree hart.prv) ∧
  (hart.begins → (execStep cfg hart.starting).Under surroundings.monitor world
    fun _ outcome => ∀ after, outcome = .done () after →
      returnMode after.op ≠ none → after.prv ≤ hart.prv)

section Escalation

variable (cfg : Config) {hart decoded : Hart}

/-- What the execution of one decoded instruction does to the level. -/
theorem execute_prv (safe : ¬ Escalates decoded) :
    (Machine.answering (perform cfg)
      (execute cfg decoded.instr decoded.op) decoded).All fun outcome =>
        ∀ after, outcome = .done () after → after.prv ≤ decoded.prv := by
  cases accepted : hasCase decoded.op with
  | false =>
      rw [execute_of_not_hasCase cfg _ _ accepted, Program.all_ret]
      intro after contradiction
      cases contradiction
  | true =>
      cases returns : returnMode decoded.op with
      | none =>
          refine (execute_executed cfg .any accepted returns
            fun _ _ => trivial).mono fun outcome holds after completed => ?_
          have executed := holds.1 after (by rw [completed]; rfl)
          exact executed.prv ▸ BitVec.le_refl _
      | some mode =>
          rcases returnMode_cases returns with op | op | op <;> rw [op]
          · rw [execute_uret, Program.all_ret]
            split
            · rintro after ⟨⟩
              exact Nat.zero_le _
            · intro after contradiction
              cases contradiction
          · by_cases legal : decoded.sretLegal
            · rw [execute_sret_of_legal cfg _ _ legal, Program.all_ret]
              rintro after ⟨⟩
              refine BitVec.not_lt.1 fun raises => safe ?_
              exact .inr ⟨op, legal, raises⟩
            · rw [execute_sret_of_not_legal cfg _ _ legal, Program.all_ret]
              intro after contradiction
              cases contradiction
          · rw [execute_mret, Program.all_ret]
            rintro after ⟨⟩
            exact BitVec.not_lt.1 fun raises => safe (.inl ⟨op, raises⟩)

/-- An escalating return completes, at the higher level. -/
theorem execute_escalates (escalates : Escalates decoded) :
    ∃ after, Machine.answering (perform cfg)
        (execute cfg decoded.instr decoded.op) decoded =
          .ret (.done () after) ∧
      returnMode after.op ≠ none ∧ decoded.prv < after.prv := by
  rcases escalates with ⟨op, raises⟩ | ⟨op, legal, raises⟩
  · refine ⟨machineReturn decoded, ?_, ?_, raises⟩
    · rw [op, execute_mret]
    · rw [show (machineReturn decoded).op = .mret from op]
      exact nofun
  · refine ⟨supervisorReturn decoded, ?_, ?_, raises⟩
    · rw [op, execute_sret_of_legal cfg _ _ legal]
    · rw [show (supervisorReturn decoded).op = .sret from op]
      exact nofun

/-- The fetch and the decoder leave the level alone. -/
theorem issue_prv (hart : Hart) :
    (issue cfg hart).All fun outcome => ∀ after,
      outcome.state? = some after → after.prv = hart.prv := by
  have framed : Machine.Framed (Guard.any.frame true) (issue cfg) :=
    inferInstance
  refine (framed.framed hart trivial).mono fun outcome within after reached => ?_
  exact (within.1 after reached).1.prv

/-- A hart that has just entered a handler ends its step without escalation. -/
theorem finishes_of_enter {prv targetMode : PrivilegeLevel}
    {event : StepEvent} {hart entered : Hart}
    (enters : enter targetMode hart = some entered)
    (event_enters : event.entersHandler) :
    Finishes (EscalationFree prv) (.done event entered) :=
  ⟨fun _ settled => .done fun _ =>
    ⟨event_enters, settled.atHandler (atHandler_of_enter enters)⟩, .abort _⟩

theorem afterInstruction_escalationFree {prv : PrivilegeLevel}
    (kept : hart.prv ≤ prv) :
    AfterInstruction (EscalationFree prv) hart := by
  intro outcome chosen
  cases chosen with
  | retired idle =>
      refine ⟨fun after settled => .done fun raised => ?_, .abort _⟩
      rw [settled.steady.prv] at raised
      exact absurd kept (BitVec.not_le.2 raised)
  | taken due chosen enters => exact finishes_of_enter enters trivial
  | lost due nothing => exact EscalationFree.abort _

theorem afterTrap_escalationFree {prv : PrivilegeLevel}
    (trap : SimulationTrap) (hart : Hart) :
    AfterTrap (EscalationFree prv) trap hart := by
  intro outcome handled
  cases handled with
  | taken fits enters => exact finishes_of_enter enters trivial
  | badLexicalCast wide => exact EscalationFree.abort _
  | delegation user elsewhere => exact EscalationFree.abort _

section Surrounded

variable {G : Type} {surroundings : Surroundings Reply G} {world : G}

/-- Execution of harmless instructions only. -/
theorem execStep_prv
    (safe : ∀ later decoded,
      (issue cfg hart.starting).ReachesIn surroundings world later
        (.done () decoded) → ¬ Escalates decoded) :
    (execStep cfg hart.starting).Under surroundings.monitor world
      fun _ outcome => ∀ after, outcome = .done () after →
        after.prv ≤ hart.prv := by
  refine execStep_under cfg hart.starting ?_
  rw [Program.under_iff_reachesIn]
  intro later outcome reached
  have level := (Program.all_iff_reaches _ _).1
    (issue_prv cfg hart.starting) outcome reached.reaches
  cases outcome with
  | done value decoded =>
      have same : decoded.prv = hart.prv := level decoded rfl
      rw [← same]
      exact (execute_prv cfg (safe later decoded reached)).under _ later
  | trap trap middle =>
      intro after contradiction
      cases contradiction
  | abort reason =>
      intro after contradiction
      cases contradiction

/-- A step is free of escalation exactly when no instruction that it fetches
is a return to a higher level. -/
theorem noEscalation_iff (cfg : Config) (surroundings : Surroundings Reply G)
    (world : G) (hart : Hart) :
    NoEscalation cfg surroundings world hart ↔
      ∀ decoded, Issues cfg surroundings world hart decoded →
        ¬ Escalates decoded := by
  constructor
  · rintro ⟨_, returns⟩ decoded ⟨begins, later, reached⟩ escalates
    obtain ⟨after, equation, isReturn, raised⟩ :=
      execute_escalates cfg escalates
    have level : decoded.prv = hart.prv :=
      (Program.all_iff_reaches _ _).1 (issue_prv cfg hart.starting) _
        reached.reaches decoded rfl
    have completes : (execStep cfg hart.starting).ReachesIn surroundings world
        later (.done () after) := by
      refine (Program.reachesIn_bind _ _ _ _ _).2 ⟨later, _, reached, ?_⟩
      exact (congrArg (fun program : Program Reply _ =>
        program.ReachesIn surroundings later later _) equation).mpr (.ret _ _)
    have lowered := (Program.under_iff_reachesIn _ _ _).1 (returns begins) _ _
      completes after rfl isReturn
    rw [level] at raised
    exact absurd lowered (BitVec.not_le.2 raised)
  · intro safe
    have executes (begins : hart.begins) :
        (execStep cfg hart.starting).Under surroundings.monitor world
          fun _ outcome => ∀ after, outcome = .done () after →
            after.prv ≤ hart.prv :=
      execStep_prv cfg fun later decoded reached =>
        safe decoded ⟨begins, later, reached⟩
    constructor
    · refine runStep_under cfg hart (.abort _)
        (fun _ => .done fun raised => absurd raised (BitVec.lt_irrefl _))
        fun begins => ?_
      refine (executes begins).mono fun _ outcome kept => ?_
      cases outcome with
      | done value middle =>
          exact afterInstruction_escalationFree (kept middle rfl)
      | trap trap middle => exact afterTrap_escalationFree trap middle
      | abort reason => exact EscalationFree.abort reason
    · intro begins
      exact (executes begins).mono fun _ outcome kept after completed _ =>
        kept after completed

/-- Set `mpp` to machine mode, point `uepc` at the last instruction, leave for
user mode with `URET` and execute `MRET` there. -/
def mretInUserMode : List (BitVec 32) :=
  [0x000020b7, 0x80008093, 0x3000a073, 0x041a5073, 0x00200073, 0x30200073]

/-- The step retires its instruction in a higher mode. -/
def rises (hart : Hart) : Outcome Hart SimulationTrap Fatal StepEvent → Bool
  | .done .retired after => hart.prv < after.prv
  | _ => false

/-- User mode reaches machine mode without a trap. -/
theorem not_noEscalation_of_reachable :
    ¬ ∀ (cfg : Config) (world : Platform) (hart : Hart),
      Reachable cfg Platform.surroundings world hart →
        NoEscalation cfg Platform.surroundings world hart := by
  intro free
  obtain ⟨world, hart, later, outcome, reachable, steps, raised⟩ :=
    Platform.exists_of_nextStep mretInUserMode 5 [] rises (by decide +kernel)
  have escapes := (Program.under_iff_reachesIn _ _ _).1
    (free Platform.config world hart reachable).1 later outcome steps
  unfold rises at raised
  split at raised
  next after =>
    exact (escapes .retired after rfl (by simpa using raised)).1
  next => cases raised

end Surrounded

end Escalation

end Rv32

end RiscvVp
