import RiscvVp.Fe310Plic.Plic

/-!
# The search for a pending interrupt

The loop of `hart_get_next_pending_interrupt` is an election by priority, and
some interrupt is found exactly if one is due.
-/

namespace RiscvVp

namespace Fe310Plic

open Device Election

theorem hasBit_eq (word : Word) (irq : ℕ) :
    hasBit word irq = word.getLsbD (irq % 32) :=
  Fu540Plic.and_getOff word irq

section Search

variable {parameters : Parameters} (plic : Plic)

/-- Some interrupt is pending, enabled for the hart and of a priority above its
threshold. -/
def Plic.Due (parameters : Parameters) (plic : Plic) (hart : ℕ) : Prop :=
  ∃ irq, 0 < irq ∧ irq < parameters.numberInterrupts ∧
    plic.enabled hart irq = true ∧ plic.pending irq = true ∧
    plic.threshold hart < plic.priority irq

/-- What the loop admits. -/
def Plic.admits (hart : ℕ) (considerThreshold : Bool) (irq : ℕ) : Bool :=
  plic.enabled hart irq && plic.pending irq &&
    (!considerThreshold || decide (plic.threshold hart < plic.priority irq))

theorem considerInterrupt_eq {hart : ℕ} (below : hart < parameters.numberCores)
    (considerThreshold : Bool) (best : ℕ × ℕ) {irq : ℕ}
    (inside : irq < parameters.numberInterrupts) :
    plic.considerInterrupt parameters hart considerThreshold best irq =
      .ok (consider (plic.admits hart considerThreshold) plic.priority best
        irq) := by
  have bound : irq < parameters.numberInterrupts + 1 := by omega
  cases offered : plic.enabled hart irq && plic.pending irq with
  | false =>
      simp only [Plic.considerInterrupt, offered, consider, Plic.admits,
        Bool.false_and, Bool.false_eq_true, if_false]
      rfl
  | true =>
      simp only [Plic.considerInterrupt, offered, consider, Plic.admits, bound,
        decide_true, assert_true, if_true, Bool.true_and]
      by_cases positive : 0 < plic.priority irq
      · cases considerThreshold with
        | false =>
            by_cases higher : best.2 < plic.priority irq <;>
              simp [positive, higher, bind, Except.bind, pure, Except.pure]
        | true =>
            by_cases above : plic.threshold hart < plic.priority irq <;>
              by_cases higher : best.2 < plic.priority irq <;>
                simp [positive, above, higher, below, bind, Except.bind, pure,
                  Except.pure]
      · have never : ¬ best.2 < plic.priority irq := by omega
        simp [positive, never, bind, Except.bind, pure, Except.pure]

theorem foldlM_considerInterrupt {hart : ℕ}
    (below : hart < parameters.numberCores) (considerThreshold : Bool)
    (irqs : List ℕ) (inside : ∀ irq ∈ irqs, irq < parameters.numberInterrupts)
    (best : ℕ × ℕ) :
    irqs.foldlM (plic.considerInterrupt parameters hart considerThreshold) best =
      .ok (scan (plic.admits hart considerThreshold) plic.priority irqs best) := by
  induction irqs generalizing best with
  | nil => rfl
  | cons irq irqs inductionHypothesis =>
      rw [List.foldlM_cons, considerInterrupt_eq plic below considerThreshold best
        (inside irq (List.mem_cons_self ..))]
      exact inductionHypothesis
        (fun other member => inside other (List.mem_cons_of_mem irq member)) _

/-- What the whole loop finds. -/
def Plic.selection (parameters : Parameters) (plic : Plic) (hart : ℕ)
    (considerThreshold : Bool) : ℕ :=
  (scan (plic.admits hart considerThreshold) plic.priority
    (List.range' 1 (parameters.numberInterrupts - 1)) (0, 0)).1

theorem hartGetNextPendingInterrupt_eq {hart : ℕ}
    (below : hart < parameters.numberCores) (considerThreshold : Bool) :
    plic.hartGetNextPendingInterrupt parameters hart considerThreshold =
      .ok (plic.selection parameters hart considerThreshold) := by
  have inside : ∀ irq ∈ List.range' 1 (parameters.numberInterrupts - 1),
      irq < parameters.numberInterrupts := by
    intro irq member
    rw [List.mem_range'_1] at member
    omega
  rw [Plic.hartGetNextPendingInterrupt,
    foldlM_considerInterrupt plic below considerThreshold _ inside]
  rfl

theorem selection_lt (parameters : Parameters) (hart : ℕ)
    (considerThreshold : Bool) :
    plic.selection parameters hart considerThreshold <
      parameters.numberInterrupts := by
  have found := found_scan (plic.admits hart considerThreshold) plic.priority
    (0, 0) (List.range' 1 (parameters.numberInterrupts - 1))
    List.pairwise_lt_range'
  rcases found with ⟨same, _⟩ | ⟨_, elected⟩
  · rw [Plic.selection, same]
    exact parameters.interrupts
  · have member := List.mem_range'_1.mp elected.stands.1
    have counted := parameters.interrupts
    rw [Plic.selection]
    omega

/-- With the threshold, the loop finds an interrupt if one is due. -/
theorem selection_pos_iff (parameters : Parameters) (hart : ℕ) :
    0 < plic.selection parameters hart true ↔ plic.Due parameters hart := by
  have found := found_scan (plic.admits hart true) plic.priority (0, 0)
    (List.range' 1 (parameters.numberInterrupts - 1)) List.pairwise_lt_range'
  have admits : ∀ irq, plic.admits hart true irq = true ↔
      plic.enabled hart irq = true ∧ plic.pending irq = true ∧
        plic.threshold hart < plic.priority irq := by
    intro irq
    simp [Plic.admits, and_assoc]
  constructor
  · intro positive
    rcases found with ⟨same, _⟩ | ⟨_, elected⟩
    · rw [Plic.selection, same] at positive
      exact absurd positive (Nat.lt_irrefl 0)
    · obtain ⟨member, admitted, _⟩ := elected.stands
      rw [List.mem_range'_1] at member
      exact ⟨_, by omega, by omega, (admits _).mp admitted⟩
  · rintro ⟨irq, positive, inside, offered⟩
    have member : irq ∈ List.range' 1 (parameters.numberInterrupts - 1) := by
      rw [List.mem_range'_1]
      omega
    rcases found with ⟨_, low⟩ | ⟨_, elected⟩
    · have none := low irq member ((admits irq).mpr offered)
      have above := offered.2.2
      omega
    · have listed := List.mem_range'_1.mp elected.stands.1
      exact Nat.lt_of_lt_of_le Nat.zero_lt_one listed.1

theorem hartHasPendingEnabledInterrupts_eq {hart : ℕ}
    (below : hart < parameters.numberCores) :
    ∃ hasPending, plic.hartHasPendingEnabledInterrupts parameters hart =
        .ok hasPending ∧
      (hasPending = true ↔ plic.Due parameters hart) := by
  refine ⟨decide (0 < plic.selection parameters hart true), ?_, ?_⟩
  · rw [Plic.hartHasPendingEnabledInterrupts,
      hartGetNextPendingInterrupt_eq plic below true]
    rfl
  · rw [decide_eq_true_iff]
    exact selection_pos_iff plic parameters hart

end Search

/-- Whether an interrupt is due depends on the registers alone. -/
theorem due_mono {parameters : Parameters} {plic later : Plic} {hart : ℕ}
    (enabled : later.hartEnabledInterrupts = plic.hartEnabledInterrupts)
    (pending : ∀ irq, later.pending irq = true → plic.pending irq = true)
    (priority : later.interruptPriorities = plic.interruptPriorities)
    (threshold : later.threshold hart = plic.threshold hart)
    (due : later.Due parameters hart) : plic.Due parameters hart := by
  obtain ⟨irq, positive, inside, isEnabled, isPending, above⟩ := due
  refine ⟨irq, positive, inside, ?_, pending irq isPending, ?_⟩
  · rw [Plic.enabled, ← enabled]
    exact isEnabled
  · rw [← threshold, Plic.priority, ← priority]
    exact above

theorem due_congr {parameters : Parameters} {plic later : Plic} {hart : ℕ}
    (enabled : later.hartEnabledInterrupts = plic.hartEnabledInterrupts)
    (pending : later.pendingInterrupts = plic.pendingInterrupts)
    (priority : later.interruptPriorities = plic.interruptPriorities)
    (threshold : later.threshold hart = plic.threshold hart) :
    later.Due parameters hart ↔ plic.Due parameters hart := by
  have samePending : ∀ irq, later.pending irq = plic.pending irq := by
    intro irq
    rw [Plic.pending, Plic.pending, pending]
  constructor
  · apply due_mono enabled _ priority threshold
    intro irq isPending
    rw [← samePending, isPending]
  · apply due_mono enabled.symm _ priority.symm threshold.symm
    intro irq isPending
    rw [samePending, isPending]

/-! ## The thread -/

/-- One turn of the thread asserts the lines of all harts with an interrupt
due. -/
theorem run_eq (parameters : Parameters) (plic : Plic) :
    ∃ later, plic.run parameters = .ok later ∧ later.notified = false ∧
      later.hartEnabledInterrupts = plic.hartEnabledInterrupts ∧
      later.pendingInterrupts = plic.pendingInterrupts ∧
      later.interruptPriorities = plic.interruptPriorities ∧
      later.hartConfig = plic.hartConfig ∧
      ∀ hart < parameters.numberCores, plic.Due parameters hart →
        later.hartEip hart = true := by
  have loop : ∀ harts : List ℕ, (∀ hart ∈ harts, hart < parameters.numberCores) →
      ∀ current : Plic, ∃ later,
        harts.foldlM (fun plic hart => plic.serveHart parameters hart) current =
            .ok later ∧
          later = { current with hartEip := later.hartEip, line := later.line } ∧
          (∀ hart, current.hartEip hart = true → later.hartEip hart = true) ∧
          ∀ hart ∈ harts, current.Due parameters hart →
            later.hartEip hart = true := by
    intro harts
    induction harts with
    | nil =>
        intro _ current
        exact ⟨current, rfl, rfl, fun _ eip => eip, fun hart none => by
          cases none⟩
    | cons hart harts inductionHypothesis =>
        intro below current
        obtain ⟨hasPending, search, due⟩ := hartHasPendingEnabledInterrupts_eq
          current (below hart (List.mem_cons_self ..))
        have served : ∃ next, current.serveHart parameters hart = .ok next ∧
            next = { current with hartEip := next.hartEip, line := next.line } ∧
            (∀ other, current.hartEip other = true →
              next.hartEip other = true) ∧
            (current.Due parameters hart → next.hartEip hart = true) := by
          cases eip : current.hartEip hart with
          | true =>
              refine ⟨current, ?_, rfl, fun _ same => same, fun _ => eip⟩
              rw [Plic.serveHart, eip]
              rfl
          | false =>
              cases found : hasPending with
              | true =>
                  rw [found] at search
                  refine ⟨(current.setEip hart true).setLine hart true, ?_, rfl,
                    fun other held => ?_, fun _ => ?_⟩
                  · simp [Plic.serveHart, eip, search, bind, Except.bind, pure,
                      Except.pure]
                  · change Function.update current.hartEip hart true other = true
                    by_cases same : other = hart
                    · rw [same, Function.update_self]
                    · rw [Function.update_of_ne same, held]
                  · exact Function.update_self hart true current.hartEip
              | false =>
                  rw [found] at search due
                  refine ⟨current, ?_, rfl, fun _ same => same, fun some => ?_⟩
                  · simp [Plic.serveHart, eip, search, bind, Except.bind, pure,
                      Except.pure]
                  · exact absurd (due.mpr some) (by decide)
        obtain ⟨next, first, same, kept, asserted⟩ := served
        obtain ⟨later, rest, sameLater, keptLater, assertedLater⟩ :=
          inductionHypothesis
            (fun other member => below other (List.mem_cons_of_mem hart member))
            next
        refine ⟨later, ?_, ?_, fun other held => keptLater other (kept other held),
          ?_⟩
        · rw [List.foldlM_cons, first]
          exact rest
        · rw [sameLater, same]
        · intro other member dueOther
          rcases List.mem_cons.mp member with rfl | others
          · exact keptLater other (asserted dueOther)
          · apply assertedLater other others
            rw [same]
            exact dueOther
  obtain ⟨later, ran, same, _, asserted⟩ :=
    loop (List.range parameters.numberCores) (fun _ => List.mem_range.mp)
      { plic with notified := false }
  refine ⟨later, ran, ?_, ?_, ?_, ?_, ?_, ?_⟩
  · rw [same]
  · rw [same]
  · rw [same]
  · rw [same]
  · rw [same]
  · intro hart below due
    exact asserted hart (List.mem_range.mpr below) due

end Fe310Plic

end RiscvVp
