import RiscvVp.Device.Trace
import RiscvVp.Fu540Plic.Claim

/-!
# The external interrupt lines

Between notifications the line of a context should be asserted exactly while
some interrupt is due there: enabled, pending and of a programmed priority
above the threshold.

The thread asserts lines and completions clear them, and nothing else touches
a line.  So a claim, or a write of a priority, of a threshold or of enable
bits, keeps lines right only if it makes no interrupt due and no context idle.
The thread itself goes wrong where it admits a priority equal to the threshold,
looks at the follower's priority, or reports one of two levels.
-/

namespace RiscvVp

namespace Fu540Plic

open Device Election Trace

/-- Some interrupt is enabled, pending and above the context's threshold. -/
def Plic.Due (plic : Plic) (context : Context) : Prop :=
  ∃ irq, plic.Offered context irq ∧
    plic.threshold context < plic.programmed irq

/-- Some interrupt other than this one is. -/
def Plic.DueBeside (plic : Plic) (irq : ℕ) (context : Context) : Prop :=
  ∃ other, other ≠ irq ∧ plic.Offered context other ∧
    plic.threshold context < plic.programmed other

/-- Once the thread has processed all notifications, a line is asserted exactly
if an interrupt is due in its context.  Hart 0 has no supervisor context, so
nothing is due there. -/
def LinesHold (harts : ℕ) (plic : Plic) : Prop :=
  plic.notified = false → ∀ context : Context, context.hart < harts →
    (plic.line context = true ↔
      context.isMissing = false ∧ plic.Due context)

theorem offered_congr {first second : Plic} {context : Context} {irq : ℕ}
    (enabled : first.enabledIrqs context = second.enabledIrqs context)
    (pending : first.pending irq = second.pending irq) :
    first.Offered context irq ↔ second.Offered context irq := by
  have bits : first.enabled context irq = second.enabled context irq := by
    rw [Plic.enabled, Plic.enabled, enabled]
  exact ⟨fun offered => ⟨offered.positive, offered.atMost,
      bits ▸ offered.enabled, pending ▸ offered.pending⟩,
    fun offered => ⟨offered.positive, offered.atMost,
      bits ▸ offered.enabled, pending ▸ offered.pending⟩⟩

theorem due_congr {first second : Plic} {context : Context}
    (offered : ∀ irq, first.Offered context irq ↔ second.Offered context irq)
    (programmed : first.programmed = second.programmed)
    (threshold : first.threshold context = second.threshold context) :
    first.Due context ↔ second.Due context := by
  simp only [Plic.Due, offered, programmed, threshold]

/-! ## The condition on a step -/

/-- What the thread takes for a due interrupt. -/
def Plic.Noticed (plic : Plic) (context : Context) : Prop :=
  ∃ irq, plic.Offered context irq ∧ 0 < plic.following irq ∧
    plic.threshold context ≤ plic.following irq

/-- The thread asserts the line: it prefers supervisor mode. -/
def Plic.Signalled (plic : Plic) (context : Context) : Prop :=
  plic.Noticed context ∧
    (context.level = .machine → context.hart ≠ 0 →
      ¬ plic.Noticed ⟨context.hart, .supervisor⟩)

/-- The event leaves the lines right, judged from the state before it.

A turn of the thread has to assert the lines of all contexts with a due
interrupt and of no other.  While no notification is outstanding, a claim must
leave another due interrupt wherever one is due, a completion must come from a
context with nothing due, and a write must make no interrupt due or undue in
any context. -/
def LeavesLinesRight (harts : ℕ) (plic : Plic) : Event → Prop
  | .trigger _ => True
  | .wake => plic.notified = true → ∀ context ∈ contexts harts,
      (plic.Due context ↔ plic.line context = true ∨ plic.Signalled context)
  | .transport transaction => plic.notified = false →
      (∀ context, Claims harts transaction context → ∀ irq,
        ElectedElse
          (fun irq => plic.Offered context irq ∧ 0 < plic.following irq)
          plic.following 0 irq →
        ∀ other ∈ contexts harts, plic.Due other → plic.DueBeside irq other) ∧
      (∀ context, Completes harts transaction context → ¬ plic.Due context) ∧
      (transaction.command = .write → ∀ context ∈ contexts harts,
        ((plic.programmedBy harts transaction).Due context ↔ plic.Due context))

/-! ## What the thread reports -/

theorem noticed_of_nextPendingIrq {plic : Plic} {context : Context} {irq : ℕ}
    (search : plic.nextPendingIrq context false = .ok irq) :
    0 < irq ↔ plic.Noticed context := by
  have elected := (plic.nextPendingIrq_eq_ok.mp search).2.2
  have selectable : ∀ {other}, plic.Selectable context false other ↔
      plic.Offered context other ∧ 0 < plic.following other ∧
        plic.threshold context ≤ plic.following other := by
    intro other
    simp only [Plic.Selectable, Plic.admits, Bool.false_or, Bool.and_eq_true,
      decide_eq_true_eq]
    tauto
  constructor
  · intro positive
    rcases elected with ⟨rfl, _⟩ | elected
    · omega
    · exact ⟨irq, selectable.mp elected.stands⟩
  · rintro ⟨other, noticed⟩
    rcases elected with ⟨rfl, nobody⟩ | elected
    · exact absurd (selectable.mpr noticed) (nobody other)
    · exact elected.stands.offered.positive

/-- What `has_pending_irq` reports when it does not fail. -/
inductive Reported (plic : Plic) (hart : ℕ) : Option Level → Prop
  | supervisor (other : hart ≠ 0) (noticed : plic.Noticed ⟨hart, .supervisor⟩) :
      Reported plic hart (some .supervisor)
  | machine (unnoticed : hart ≠ 0 → ¬ plic.Noticed ⟨hart, .supervisor⟩)
      (noticed : plic.Noticed ⟨hart, .machine⟩) :
      Reported plic hart (some .machine)
  | nothing (unnoticed : hart ≠ 0 → ¬ plic.Noticed ⟨hart, .supervisor⟩)
      (neither : ¬ plic.Noticed ⟨hart, .machine⟩) : Reported plic hart none

theorem reported_of_hasPendingIrq {plic : Plic} {hart : ℕ}
    {level : Option Level} (reported : plic.hasPendingIrq hart = .ok level) :
    Reported plic hart level := by
  have machine : (hart ≠ 0 → ¬ plic.Noticed ⟨hart, .supervisor⟩) →
      (plic.nextPendingIrq ⟨hart, .machine⟩ false >>= fun irq =>
        pure (if 0 < irq then some Level.machine else none)) = .ok level →
      Reported plic hart level := by
    intro unnoticed rest
    obtain ⟨irq, search, last⟩ := bind_eq_ok.mp rest
    have noticed := noticed_of_nextPendingIrq search
    by_cases found : 0 < irq
    · rw [if_pos found] at last
      cases last
      exact .machine unnoticed (noticed.mp found)
    · rw [if_neg found] at last
      cases last
      exact .nothing unnoticed fun some => found (noticed.mpr some)
  by_cases other : hart ≠ 0
  · simp only [Plic.hasPendingIrq, if_pos other] at reported
    obtain ⟨supervisor, search, rest⟩ := bind_eq_ok.mp reported
    have noticed := noticed_of_nextPendingIrq search
    by_cases found : 0 < supervisor
    · rw [if_pos ⟨other, found⟩] at rest
      cases rest
      exact .supervisor other (noticed.mp found)
    · rw [if_neg fun both => found both.2] at rest
      exact machine (fun _ some => found (noticed.mpr some)) rest
  · simp only [Plic.hasPendingIrq, if_neg other, pure_bind] at reported
    rw [if_neg fun both => other both.1] at reported
    exact machine (fun different => absurd different other) reported

theorem reports_iff_signalled {plic : Plic} {context : Context}
    {level : Option Level}
    (reported : plic.hasPendingIrq context.hart = .ok level)
    (present : context.isMissing = false) :
    Reports plic context ↔ plic.Signalled context := by
  have reports : Reports plic context ↔ level = some context.level := by
    rw [Reports, reported]
    exact ⟨Except.ok.inj, congrArg Except.ok⟩
  rw [reports, Plic.Signalled]
  obtain ⟨hart, own⟩ := context
  cases reported_of_hasPendingIrq reported with
  | supervisor other noticed =>
      cases own with
      | machine => simp [other, noticed]
      | supervisor => simp [noticed]
  | machine unnoticed noticed =>
      cases own with
      | machine => simpa [noticed] using unnoticed
      | supervisor =>
          have other : hart ≠ 0 := by
            simpa [Context.isMissing] using present
          simp [unnoticed other]
  | nothing unnoticed neither =>
      cases own with
      | machine => simp [neither]
      | supervisor =>
          have other : hart ≠ 0 := by
            simpa [Context.isMissing] using present
          simp [unnoticed other]

theorem not_reports_missing {plic : Plic} {context : Context}
    (missing : context.isMissing = true) : ¬ Reports plic context := by
  intro report
  obtain ⟨hart, level⟩ := context
  simp only [Context.isMissing, Bool.and_eq_true, beq_iff_eq] at missing
  obtain ⟨rfl, rfl⟩ := missing
  cases reported_of_hasPendingIrq report with
  | supervisor other _ => exact other rfl

theorem hasPendingIrq_of_run {plic later : Plic} {harts : List ℕ}
    (served : harts.foldlM Plic.serveHart plic = .ok later) {hart : ℕ}
    (member : hart ∈ harts) : ∃ level, plic.hasPendingIrq hart = .ok level := by
  induction harts generalizing plic with
  | nil => cases member
  | cons first harts inductionHypothesis =>
      simp only [List.foldlM_cons, bind_eq_ok] at served
      obtain ⟨middle, one, rest⟩ := served
      rcases List.mem_cons.mp member with rfl | others
      · simp only [Plic.serveHart, bind_eq_ok] at one
        obtain ⟨level, reported, _⟩ := one
        exact ⟨level, reported⟩
      · obtain rfl := serveHart_eq_ok one
        have found := inductionHypothesis rest others
        exact found

/-! ## One step -/

/-- No line of a context that does not exist is ever asserted. -/
def NoPhantom (plic : Plic) : Prop :=
  ∀ context : Context, context.isMissing = true → plic.line context = false

theorem lines_wake {harts : ℕ} {plic later : Plic} (phantom : NoPhantom plic)
    (ran : plic.run harts = .ok later) :
    LinesHold harts later ↔ ∀ context ∈ contexts harts,
      (plic.Due context ↔ plic.line context = true ∨ plic.Signalled context) := by
  have asserted : ∀ context ∈ contexts harts, (later.line context = true ↔
      plic.line context = true ∨ plic.Signalled context) := by
    intro context member
    obtain ⟨below, present⟩ := mem_contexts.mp member
    obtain ⟨level, reported⟩ :=
      hasPendingIrq_of_run ran (List.mem_range.mpr below)
    have signalled : Reports plic context ↔ plic.Signalled context :=
      reports_iff_signalled reported present
    rw [run_eq_ok ran]
    simp [below, signalled]
  have due : ∀ context, later.Due context ↔ plic.Due context := by
    intro context
    rw [run_eq_ok ran]
    exact due_congr (fun _ => offered_congr rfl rfl) rfl rfl
  have quiet : later.notified = false := by
    rw [run_eq_ok ran]
  constructor
  · intro hold context member
    obtain ⟨below, present⟩ := mem_contexts.mp member
    have line := hold quiet context below
    rw [asserted context member, due context] at line
    tauto
  · intro right _ context below
    rw [due context]
    cases missing : context.isMissing with
    | true =>
        have off : later.line context = false := by
          rw [run_eq_ok ran]
          simp [phantom context missing, not_reports_missing missing]
        simp [off]
    | false =>
        have member := mem_contexts.mpr ⟨below, missing⟩
        rw [asserted context member, ← right context member]
        simp

theorem due_claimed (plic : Plic) (claimer : Context) (irq : ℕ)
    (context : Context) :
    (plic.claimed claimer irq).Due context ↔ plic.DueBeside irq context := by
  have threshold : (plic.claimed claimer irq).threshold context =
      plic.threshold context := by
    by_cases same : context = claimer
    · simp [Plic.threshold, Plic.claimed, same, Storage.word_setWord]
    · simp [Plic.threshold, Plic.claimed, same]
  have offered : ∀ other, (plic.claimed claimer irq).Offered context other ↔
      other ≠ irq ∧ plic.Offered context other := by
    intro other
    constructor
    · intro claimed
      have pending := claimed.pending
      rw [plic.pending_claimed claimer claimed.positive] at pending
      simp only [Bool.and_eq_true, decide_eq_true_eq] at pending
      exact ⟨pending.2, claimed.positive, claimed.atMost, claimed.enabled,
        pending.1⟩
    · rintro ⟨different, before⟩
      refine ⟨before.positive, before.atMost, before.enabled, ?_⟩
      rw [plic.pending_claimed claimer before.positive, before.pending]
      simpa using different
  have programmed : (plic.claimed claimer irq).programmed = plic.programmed :=
    rfl
  simp only [Plic.Due, Plic.DueBeside, offered, threshold, programmed, and_assoc]

/-- A completion writes the claim word, which nothing depends on. -/
theorem due_completed {harts : ℕ} {plic : Plic} {transaction : Transaction}
    {context : Context} (completes : Completes harts transaction context)
    (other : Context) :
    (plic.programmedBy harts transaction).Due other ↔ plic.Due other := by
  have isClaim : isClaimAccess 4 = true := by
    decide
  rw [programmedBy_eq plic completes.target, completes.offset]
  simp only [Plic.stored, isClaim, if_true]
  refine due_congr (fun _ => offered_congr rfl rfl) rfl ?_
  by_cases same : other = context
  · simp [Plic.threshold, same, Storage.word, Storage.copy]
  · simp [Plic.threshold, same]

theorem notified_programmedBy (plic : Plic) (harts : ℕ)
    (transaction : Transaction) :
    (plic.programmedBy harts transaction).notified = plic.notified ∧
      (plic.programmedBy harts transaction).line = plic.line := by
  cases found : target harts transaction with
  | none => simp [Plic.programmedBy, found]
  | some register =>
      cases register <;> simp [Plic.programmedBy, found, Plic.stored]

theorem notified_effect {harts : ℕ} {plic later : Plic}
    {transaction : Transaction} {reply : List Byte}
    (effect : Effect harts plic transaction reply later) :
    later.notified = plic.notified := by
  cases effect with
  | read => rfl
  | claim => rfl
  | complete => exact (notified_programmedBy plic harts transaction).1
  | program => exact (notified_programmedBy plic harts transaction).1

theorem mem_contexts_of_target {harts : ℕ} {transaction : Transaction}
    {context : Context}
    (found : target harts transaction = some (.context context)) :
    context ∈ contexts harts := by
  have member := List.mem_of_find?_eq_some found
  simpa [registers] using member

/-- Lines hold after a step that leaves them alone if nothing becomes due or
undue. -/
theorem linesHold_iff_due {harts : ℕ} {plic later : Plic}
    (quiet : plic.notified = false) (stillQuiet : later.notified = false)
    (line : later.line = plic.line) (hold : LinesHold harts plic) :
    LinesHold harts later ↔
      ∀ context ∈ contexts harts, (later.Due context ↔ plic.Due context) := by
  constructor
  · intro laterHold context member
    obtain ⟨below, present⟩ := mem_contexts.mp member
    have before := hold quiet context below
    have after := laterHold stillQuiet context below
    rw [line] at after
    tauto
  · intro same _ context below
    rw [line, hold quiet context below]
    cases missing : context.isMissing with
    | true => simp
    | false => simp [same context (mem_contexts.mpr ⟨below, missing⟩)]

theorem lines_transport {harts : ℕ} {plic later : Plic}
    {transaction : Transaction} {reply : List Byte}
    (hold : LinesHold harts plic)
    (effect : Effect harts plic transaction reply later) :
    LinesHold harts later ↔
      LeavesLinesRight harts plic (.transport transaction) := by
  have notified := notified_effect effect
  by_cases awake : plic.notified = true
  · have loud : later.notified = true := notified.trans awake
    simp [LinesHold, LeavesLinesRight, loud, awake]
  · have quiet : plic.notified = false := by
      simpa using awake
    have stillQuiet := notified.trans quiet
    simp only [LeavesLinesRight, quiet, true_implies]
    cases effect with
    | read reads idle =>
        have noClaim : ∀ context, ¬ Claims harts transaction context :=
          fun context claims => idle context claims.toAddressesClaim
        have noCompletion : ∀ context, ¬ Completes harts transaction context :=
          fun context completes => idle context completes.toAddressesClaim
        simp [hold, noClaim, noCompletion, reads]
    | @claim claimer irq claims selected =>
        have elected := (plic.nextPendingIrq_eq_ok.mp selected).2.2
        rw [selectable_ignoring] at elected
        have noCompletion : ∀ context, ¬ Completes harts transaction context := by
          intro context completes
          have both := claims.reads.symm.trans completes.writes
          cases both
        have noWrite : transaction.command ≠ .write := by
          simp [claims.reads]
        rw [linesHold_iff_due quiet stillQuiet rfl hold]
        simp only [due_claimed, noCompletion, noWrite, false_implies,
          implies_true, and_true]
        constructor
        · intro same context another other electedOther context' member due
          obtain rfl := claims.toAddressesClaim.unique another.toAddressesClaim
          obtain rfl := elected.unique electedOther
          exact (same context' member).mpr due
        · intro keeps context member
          constructor
          · rintro ⟨other, _, due⟩
            exact ⟨other, due⟩
          · exact keeps claimer claims irq elected context member
    | @complete _ context completes whole =>
        have noClaim : ∀ other, ¬ Claims harts transaction other := by
          intro other claims
          have both := claims.reads.symm.trans completes.writes
          cases both
        obtain ⟨below, present⟩ :=
          mem_contexts.mp (mem_contexts_of_target completes.target)
        have cleared : ∀ other : Context,
            ((plic.programmedBy harts transaction).setLine context false).Due
              other ↔ plic.Due other := by
          intro other
          have same : ((plic.programmedBy harts transaction).setLine context
              false).Due other ↔ (plic.programmedBy harts transaction).Due other :=
            due_congr (fun _ => offered_congr rfl rfl) rfl rfl
          exact same.trans (due_completed completes other)
        have line : ∀ other : Context,
            (((plic.programmedBy harts transaction).setLine context false).line
              other = true ↔ other ≠ context ∧ plic.line other = true) := by
          intro other
          have kept := (notified_programmedBy plic harts transaction).2
          by_cases same : other = context
          · simp [Plic.setLine, same]
          · simp [Plic.setLine, same, kept]
        simp only [noClaim, false_implies, implies_true, true_and,
          due_completed completes, and_true]
        constructor
        · intro laterHold another completesAnother due
          obtain rfl := completes.toAddressesClaim.unique
            completesAnother.toAddressesClaim
          have after := laterHold stillQuiet context below
          rw [line, cleared] at after
          exact (after.mpr ⟨present, due⟩).1 rfl
        · intro nothing _ other otherBelow
          rw [line, cleared, hold quiet other otherBelow]
          have idle := nothing context completes
          constructor
          · exact fun both => both.2
          · intro both
            exact ⟨fun same => idle (same ▸ both.2), both⟩
    | program writes idle =>
        have noClaim : ∀ context, ¬ Claims harts transaction context :=
          fun context claims => idle context claims.toAddressesClaim
        have noCompletion : ∀ context, ¬ Completes harts transaction context :=
          fun context completes => idle context completes.toAddressesClaim
        rw [linesHold_iff_due quiet stillQuiet
          (notified_programmedBy plic harts transaction).2 hold]
        simp [noClaim, noCompletion, writes]

/-- A step leaves the lines right exactly if it meets the condition. -/
theorem lines_step {harts : ℕ} {plic later : Plic} {event : Event}
    {reply : List Byte} (phantom : NoPhantom plic) (hold : LinesHold harts plic)
    (stepped : step harts event plic = .ok (reply, later)) :
    LinesHold harts later ↔ LeavesLinesRight harts plic event := by
  cases event with
  | trigger irq =>
      simp only [step, bind_eq_ok] at stepped
      obtain ⟨_, triggered, same⟩ := stepped
      cases same
      rw [plic.gatewayTriggerInterrupt_eq_ok triggered]
      simp [LinesHold, LeavesLinesRight]
  | transport transaction => exact lines_transport hold (transport_effect stepped)
  | wake =>
      by_cases awake : plic.notified = true
      · simp only [step, if_pos awake, bind_eq_ok] at stepped
        obtain ⟨_, ran, same⟩ := stepped
        cases same
        rw [lines_wake phantom ran]
        simp [LeavesLinesRight, awake]
      · simp only [step, if_neg awake] at stepped
        cases stepped
        simp [LeavesLinesRight, awake, hold]

theorem noPhantom_step {harts : ℕ} {plic later : Plic} {event : Event}
    {reply : List Byte} (phantom : NoPhantom plic)
    (stepped : step harts event plic = .ok (reply, later)) : NoPhantom later := by
  intro context missing
  have off := phantom context missing
  cases event with
  | trigger irq =>
      simp only [step, bind_eq_ok] at stepped
      obtain ⟨_, triggered, same⟩ := stepped
      cases same
      rw [plic.gatewayTriggerInterrupt_eq_ok triggered]
      exact off
  | wake =>
      by_cases awake : plic.notified = true
      · simp only [step, if_pos awake, bind_eq_ok] at stepped
        obtain ⟨_, ran, same⟩ := stepped
        cases same
        rw [run_eq_ok ran]
        simp [off, not_reports_missing missing]
      · simp only [step, if_neg awake] at stepped
        cases stepped
        exact off
  | transport transaction =>
      have kept := (notified_programmedBy plic harts transaction).2
      cases transport_effect stepped with
      | read => exact off
      | claim => exact off
      | @complete _ completer completes whole =>
          by_cases same : context = completer
          · simp [Plic.setLine, same]
          · simp [Plic.setLine, same, kept, off]
      | program => rw [kept, off]

/-! ## Whole runs -/

/-- What one event does, whatever it replies. -/
def Steps (harts : ℕ) (plic : Plic) (event : Event) (later : Plic) : Prop :=
  ∃ reply, step harts event plic = .ok (reply, later)

theorem linesHold_reset (harts : ℕ) : LinesHold harts .reset := by
  intro _ context _
  have idle : ¬ Plic.reset.Due context := by
    rintro ⟨irq, offered, _⟩
    have pending := offered.pending
    simp [Plic.pending, Plic.reset, Storage.word, Storage.zeroed] at pending
  have off : Plic.reset.line context = false := rfl
  simp [off, idle]

/-- Along every sequence of triggers, transactions and turns of the thread, the
lines are right in all states exactly if every step meets the condition. -/
theorem linesHold_iff (harts : ℕ) (events : List Event) :
    EveryState (Steps harts) (LinesHold harts) events .reset ↔
      EveryStep (Steps harts) (LeavesLinesRight harts) events .reset := by
  have kept : ∀ plic event later, NoPhantom plic → Steps harts plic event later →
      NoPhantom later := by
    rintro plic event later phantom ⟨reply, stepped⟩
    exact noPhantom_step phantom stepped
  have exact_step : ∀ plic event later, NoPhantom plic → LinesHold harts plic →
      Steps harts plic event later →
      (LinesHold harts later ↔ LeavesLinesRight harts plic event) := by
    rintro plic event later phantom hold ⟨reply, stepped⟩
    exact lines_step phantom hold stepped
  have phantom : NoPhantom .reset := fun _ _ => rfl
  exact everyState_iff_everyStep kept exact_step phantom (linesHold_reset harts)

/-- Interrupts 1 and 2 have priority 3, so has the threshold; interrupt 1 is
enabled and triggered. -/
def atThreshold : List Event :=
  [.transport ⟨.write, 0x4, bytesOf 3⟩, .transport ⟨.write, 0x8, bytesOf 3⟩,
    .transport ⟨.write, 0x200000, bytesOf 3⟩,
    .transport ⟨.write, 0x2000, bytesOf 0b10⟩, .trigger 1, .wake]

theorem not_linesHold :
    ∃ trace plic, Run 5 trace plic ∧ ¬ LinesHold 5 plic := by
  obtain ⟨trace, plic, run, checked⟩ : ∃ trace plic, Run 5 trace plic ∧
      (!plic.notified && plic.line ⟨0, .machine⟩ &&
        (List.range 54).all fun irq =>
          !decide (plic.Offered ⟨0, .machine⟩ irq) ||
            decide (plic.programmed irq ≤ plic.threshold ⟨0, .machine⟩)) = true :=
    exists_run atThreshold _ (by decide +kernel)
  simp only [Bool.and_eq_true, Bool.not_eq_true', List.all_eq_true,
    Bool.or_eq_true, decide_eq_true_eq, decide_eq_false_iff_not] at checked
  obtain ⟨⟨quiet, asserted⟩, low⟩ := checked
  refine ⟨trace, plic, run, fun hold => ?_⟩
  obtain ⟨_, irq, offered, above⟩ :=
    (hold quiet ⟨0, .machine⟩ (by decide)).mp asserted
  have listed : irq ∈ List.range 54 :=
    List.mem_range.mpr (Nat.lt_succ_of_le offered.atMost)
  rcases low irq listed with refused | below
  · exact refused offered
  · omega

end Fu540Plic

end RiscvVp
