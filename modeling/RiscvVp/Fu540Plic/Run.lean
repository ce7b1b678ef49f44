import RiscvVp.Fu540Plic.Access

/-!
# Runs of the controller

Triggers, transactions and turns of the `run` thread in any order.  Each event
changes the pending bits in one way: a trigger sets one, a claim clears one.
-/

namespace RiscvVp

namespace Fu540Plic

open Device Election

/-! ## Runs -/

/-- A run from reset, with the events and replies so far, the latest first. -/
inductive Run (harts : ℕ) : List (Event × List Byte) → Plic → Prop
  | reset : Run harts [] .reset
  | step {trace : List (Event × List Byte)} {plic later : Plic}
      {event : Event} {reply : List Byte} (run : Run harts trace plic)
      (stepped : step harts event plic = .ok (reply, later)) :
      Run harts ((event, reply) :: trace) later

/-- The events of a list, one after another. -/
def execute (harts : ℕ) :
    List Event → List (Event × List Byte) × Plic →
      Except Failure (List (Event × List Byte) × Plic)
  | [], state => .ok state
  | event :: events, (trace, plic) => do
      let (reply, later) ← step harts event plic
      execute harts events ((event, reply) :: trace, later)

theorem run_of_execute {harts : ℕ} {events : List Event}
    {state final : List (Event × List Byte) × Plic}
    (run : Run harts state.1 state.2)
    (executed : execute harts events state = .ok final) :
    Run harts final.1 final.2 := by
  induction events generalizing state with
  | nil =>
      cases executed
      exact run
  | cons event events inductionHypothesis =>
      simp only [execute, bind_eq_ok] at executed
      obtain ⟨⟨reply, later⟩, stepped, rest⟩ := executed
      exact inductionHypothesis (run.step stepped) rest

/-- A run on a list of events whose result passes a test. -/
theorem exists_run {harts : ℕ} (events : List Event) (test : Plic → Bool)
    (passes : (match execute harts events ([], .reset) with
      | .ok final => test final.2
      | .error _ => false) = true) :
    ∃ trace plic, Run harts trace plic ∧ test plic = true := by
  cases executed : execute harts events ([], .reset) with
  | error failure => simp [executed] at passes
  | ok final =>
      simp only [executed] at passes
      exact ⟨final.1, final.2, run_of_execute .reset executed, passes⟩

/-! ## Pending bits -/

theorem getLsbD_getOff {irq other : ℕ} :
    (getOff irq).getLsbD (other % 32) = decide (other % 32 = irq % 32) := by
  have bound : other % 32 < 32 := Nat.mod_lt _ (by decide)
  rw [getOff, ← BitVec.twoPow_eq, BitVec.getLsbD_twoPow]
  by_cases same : irq % 32 = other % 32
  · simp [same, bound]
  · simp [same, Ne.symm same]

theorem same_of_word {irq other : ℕ} (word : getIdx other = getIdx irq)
    (bit : other % 32 = irq % 32) : other = irq := by
  simp only [getIdx] at word
  omega

namespace Plic

variable (plic : Plic)

theorem pending_claimed (context : Context) {irq other : ℕ}
    (positive : 0 < other) :
    (plic.claimed context irq).pending other =
      (plic.pending other && decide (other ≠ irq)) := by
  by_cases none : irq = 0
  · subst none
    simp [claimed, pending, positive.ne']
  · simp only [claimed, pending, none, if_false, Storage.word_setWord]
    by_cases word : getIdx other = getIdx irq
    · rw [if_pos word, BitVec.getLsbD_and, BitVec.getLsbD_not, getLsbD_getOff, word]
      by_cases bit : other % 32 = irq % 32
      · simp [same_of_word word bit]
      · have different : other ≠ irq := fun same => bit (same ▸ rfl)
        have bound : other % 32 < 32 := Nat.mod_lt _ (by decide)
        simp [bit, different, bound]
    · have different : other ≠ irq := fun same => word (same ▸ rfl)
      simp [word, different]

theorem gatewayTriggerInterrupt_eq_ok {irq : Word} {later : Plic}
    (triggered : plic.gatewayTriggerInterrupt irq = .ok later) :
    later = { plic with
      pendingInterrupts :=
        plic.pendingInterrupts.setWord (getIdx irq.toNat)
          (plic.pendingInterrupts.word (getIdx irq.toNat) ||| getOff irq.toNat)
      notified := true } := by
  by_cases invalid : irq = 0#32 ∨ numIrq < irq.toNat
  · simp [gatewayTriggerInterrupt, invalid] at triggered
  · simp only [gatewayTriggerInterrupt, if_neg invalid, bind_eq_ok] at triggered
    obtain ⟨word, read, same⟩ := triggered
    rw [element_eq_ok read]
    exact (Except.ok.inj same).symm

theorem pending_trigger {irq : Word} {later : Plic}
    (triggered : plic.gatewayTriggerInterrupt irq = .ok later) (other : ℕ) :
    later.pending other = (plic.pending other || decide (other = irq.toNat)) := by
  rw [plic.gatewayTriggerInterrupt_eq_ok triggered]
  simp only [pending, Storage.word_setWord]
  by_cases word : getIdx other = getIdx irq.toNat
  · rw [if_pos word, BitVec.getLsbD_or, getLsbD_getOff, word]
    by_cases bit : other % 32 = irq.toNat % 32
    · simp [same_of_word word bit]
    · have different : other ≠ irq.toNat := fun same => bit (same ▸ rfl)
      simp [bit, different]
  · have different : other ≠ irq.toNat := fun same => word (same ▸ rfl)
    simp [word, different]

/-- Writes leave the pending bits alone. -/
theorem pending_programmedBy (harts : ℕ) (transaction : Transaction) :
    (plic.programmedBy harts transaction).pendingInterrupts =
      plic.pendingInterrupts := by
  cases found : target harts transaction with
  | none => simp [programmedBy, found]
  | some register => cases register <;> simp [programmedBy, found, stored]

end Plic

/-! ## The thread -/

/-- The thread triggers the line that `has_pending_irq` reports for its hart. -/
def Reports (plic : Plic) (context : Context) : Prop :=
  plic.hasPendingIrq context.hart = .ok (some context.level)

instance (plic : Plic) (context : Context) : Decidable (Reports plic context) :=
  inferInstanceAs (Decidable (_ = _))

theorem serveHart_eq_ok {plic later : Plic} {hart : ℕ}
    (served : plic.serveHart hart = .ok later) :
    later = { plic with
      line := fun context =>
        plic.line context || decide (context.hart = hart ∧ Reports plic context) } := by
  simp only [Plic.serveHart, bind_eq_ok] at served
  obtain ⟨level, reported, rest⟩ := served
  have reports : ∀ context : Context, context.hart = hart →
      (Reports plic context ↔ level = some context.level) := by
    rintro context rfl
    rw [Reports, reported]
    exact ⟨Except.ok.inj, congrArg Except.ok⟩
  cases level with
  | none =>
      cases rest
      have nowhere : ∀ context : Context,
          ¬ (context.hart = hart ∧ Reports plic context) := by
        rintro context ⟨same, report⟩
        simpa using (reports context same).mp report
      simp [nowhere]
  | some level =>
      cases rest
      rw [Plic.setLine]
      congr 1
      funext context
      by_cases same : context = ⟨hart, level⟩
      · subst same
        simp [(reports ⟨hart, level⟩ rfl).mpr rfl]
      · have elsewhere : ¬ (context.hart = hart ∧ Reports plic context) := by
          rintro ⟨equal, report⟩
          have levels := (reports context equal).mp report
          cases context
          simp_all
        simp [same, elsewhere]

theorem foldlM_serveHart {plic later : Plic} {harts : List ℕ}
    (served : harts.foldlM Plic.serveHart plic = .ok later) :
    later = { plic with
      line := fun context => plic.line context ||
        decide (context.hart ∈ harts ∧ Reports plic context) } := by
  induction harts generalizing plic with
  | nil =>
      cases served
      simp
  | cons hart harts inductionHypothesis =>
      simp only [List.foldlM_cons, bind_eq_ok] at served
      obtain ⟨middle, first, rest⟩ := served
      obtain rfl := serveHart_eq_ok first
      rw [inductionHypothesis rest]
      have unchanged : ∀ context line,
          Reports { plic with line := line } context ↔ Reports plic context :=
        fun _ _ => Iff.rfl
      simp only [unchanged, Bool.or_assoc]
      congr 1
      funext context
      grind

/-- One turn of the thread. -/
theorem run_eq_ok {plic later : Plic} {harts : ℕ}
    (ran : plic.run harts = .ok later) :
    later = { plic with
      notified := false
      line := fun context => plic.line context ||
        decide (context.hart < harts ∧ Reports plic context) } := by
  have whole := foldlM_serveHart ran
  simp only [List.mem_range] at whole
  exact whole

end Fu540Plic

end RiscvVp
