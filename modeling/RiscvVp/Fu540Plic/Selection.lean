import Mathlib.Data.Nat.Basic
import RiscvVp.Device.Election
import RiscvVp.Fu540Plic.Plic

/-!
# The interrupt that `next_pending_irq` selects

The guest programs the priority of interrupt `irq` at offset `4 * irq`, which
is element `irq - 1` of the priority array, for the array starts at `0x4`.
`next_pending_irq` reads element `irq`: the priority of the interrupt that
follows.  Interrupt 53 has no follower, and the element lies past the end.
-/

namespace RiscvVp

namespace Fu540Plic

open Device Election

theorem and_getOff (word : Word) (irq : ℕ) :
    (word &&& getOff irq != 0#32) = word.getLsbD (irq % 32) := by
  have bound : irq % 32 < 32 := Nat.mod_lt _ (by decide)
  have nonzero : BitVec.twoPow 32 (irq % 32) ≠ 0#32 := by
    intro zero
    have bit : (BitVec.twoPow 32 (irq % 32)).getLsbD (irq % 32) = false := by
      rw [zero, BitVec.getLsbD_zero]
    simp [bound] at bit
  rw [getOff, ← BitVec.twoPow_eq, BitVec.and_twoPow]
  cases word.getLsbD (irq % 32) with
  | false => simp
  | true => simpa using nonzero

theorem element_of_lt {mem : Storage} {size index : ℕ}
    (inside : index < size / 4) : element mem size index = .ok (mem.word index) := by
  simp only [element, decide_eq_true inside]
  rfl

theorem element_eq_ok {mem : Storage} {size index : ℕ} {value : Word}
    (read : element mem size index = .ok value) : mem.word index = value := by
  simp only [element, bind_eq_ok] at read
  obtain ⟨_, _, same⟩ := read
  exact Except.ok.inj same

namespace Plic

variable (plic : Plic)

/-- The enable bit of an interrupt in a context. -/
def enabled (context : Context) (irq : ℕ) : Bool :=
  ((plic.enabledIrqs context).word (getIdx irq)).getLsbD (irq % 32)

/-- The pending bit of an interrupt. -/
def pending (irq : ℕ) : Bool :=
  (plic.pendingInterrupts.word (getIdx irq)).getLsbD (irq % 32)

/-- The priority that the guest programmed at offset `4 * irq`. -/
def programmed (irq : ℕ) : ℕ :=
  (plic.interruptPriorities.word (irq - 1)).toNat

/-- The priority programmed at offset `4 * (irq + 1)`. -/
def following (irq : ℕ) : ℕ :=
  (plic.interruptPriorities.word irq).toNat

def threshold (context : Context) : ℕ :=
  ((plic.hartContext context).word 0).toNat

/-- An interrupt that is enabled in the context and pending. -/
structure Offered (context : Context) (irq : ℕ) : Prop where
  positive : 0 < irq
  atMost : irq ≤ numIrq
  enabled : plic.enabled context irq
  pending : plic.pending irq

instance (context : Context) (irq : ℕ) : Decidable (plic.Offered context irq) :=
  decidable_of_iff
    (0 < irq ∧ irq ≤ numIrq ∧ plic.enabled context irq ∧ plic.pending irq)
    ⟨fun ⟨positive, atMost, enabled, pending⟩ =>
      ⟨positive, atMost, enabled, pending⟩,
     fun offered =>
      ⟨offered.positive, offered.atMost, offered.enabled, offered.pending⟩⟩

theorem isEnabled_eq (context : Context) {irq : ℕ} (positive : 0 < irq)
    (atMost : irq ≤ numIrq) :
    plic.isEnabled context irq = .ok (plic.enabled context irq) := by
  have inside : getIdx irq < hartRegSize / 4 := by
    simp only [getIdx, hartRegSize, numIrq] at *
    omega
  have guard : (decide (0 < irq) && decide (irq ≤ numIrq)) = true := by
    simp [positive, atMost]
  simp only [isEnabled, guard, element_of_lt inside, and_getOff, enabled]
  rfl

theorem isPending_eq {irq : ℕ} (positive : 0 < irq) (atMost : irq ≤ numIrq) :
    plic.isPending irq = .ok (plic.pending irq) := by
  have inside : getIdx irq < 8 / 4 := by
    simp only [getIdx, numIrq] at *
    omega
  have guard : (decide (0 < irq) && decide (irq ≤ numIrq)) = true := by
    simp [positive, atMost]
  simp only [isPending, guard, element_of_lt inside, and_getOff, pending]
  rfl

theorem getThreshold_eq {context : Context} (present : context.isMissing = false) :
    plic.getThreshold context =
      .ok ((plic.hartContext context).word 0) := by
  simp only [getThreshold, present]
  rfl

/-- The interrupts that the loop admits: those offered, and, unless the
threshold is ignored, of a following priority not below it. -/
def admits (context : Context) (ignth : Bool) (irq : ℕ) : Bool :=
  decide (plic.Offered context irq) &&
    (ignth || decide (plic.threshold context ≤ plic.following irq))

theorem considerIrq_of_not_offered {context : Context} (ignth : Bool)
    (best : ℕ × ℕ) {irq : ℕ} (positive : 0 < irq) (atMost : irq ≤ numIrq)
    (refused : ¬ plic.Offered context irq) :
    plic.considerIrq context ignth best irq = .ok best := by
  have absent : (!plic.enabled context irq || !plic.pending irq) = true := by
    by_contra both
    simp only [Bool.or_eq_true, Bool.not_eq_true', not_or, Bool.not_eq_false]
      at both
    exact refused ⟨positive, atMost, both.1, both.2⟩
  simp only [considerIrq, plic.isEnabled_eq context positive atMost,
    plic.isPending_eq positive atMost, bind, Except.bind, absent, if_true]
  rfl

theorem considerIrq_eq {context : Context}
    (present : context.isMissing = false) (ignth : Bool) (best : ℕ × ℕ)
    {irq : ℕ} (positive : 0 < irq) (below : irq < numIrq) :
    plic.considerIrq context ignth best irq =
      .ok (consider (plic.admits context ignth) plic.following best irq) := by
  by_cases offered : plic.Offered context irq
  · have both : (!plic.enabled context irq || !plic.pending irq) = false := by
      simp [offered.enabled, offered.pending]
    have inside : irq < 4 * numIrq / 4 := by
      simpa using below
    have first : plic.admits context ignth irq =
        (ignth || decide (plic.threshold context ≤ plic.following irq)) := by
      simp [admits, offered]
    simp only [considerIrq, plic.isEnabled_eq context positive below.le,
      plic.isPending_eq positive below.le, element_of_lt inside,
      plic.getThreshold_eq present, bind, Except.bind, both, consider, first]
    rw [if_neg Bool.false_ne_true]
    change (if (!ignth && decide
        (plic.following irq < plic.threshold context)) = true then Except.ok best
      else Except.ok (if best.2 < plic.following irq then
        (irq, plic.following irq) else best)) = _
    by_cases low : plic.following irq < plic.threshold context
    · have refused : ¬ plic.threshold context ≤ plic.following irq :=
        not_le.mpr low
      cases ignth with
      | false => simp [low, refused]
      | true => simp
    · have reached : plic.threshold context ≤ plic.following irq :=
        not_lt.mp low
      simp [low, reached]
  · rw [plic.considerIrq_of_not_offered ignth best positive below.le offered]
    simp [consider, admits, offered]

theorem foldlM_considerIrq {context : Context}
    (present : context.isMissing = false) (ignth : Bool) (irqs : List ℕ)
    (inside : ∀ irq ∈ irqs, 0 < irq ∧ irq < numIrq) (best : ℕ × ℕ) :
    irqs.foldlM (plic.considerIrq context ignth) best =
      .ok (scan (plic.admits context ignth) plic.following irqs best) := by
  induction irqs generalizing best with
  | nil => rfl
  | cons irq irqs inductionHypothesis =>
      obtain ⟨positive, below⟩ := inside irq (by simp)
      rw [List.foldlM_cons, plic.considerIrq_eq present ignth best positive below]
      exact inductionHypothesis
        (fun other member => inside other (List.mem_cons_of_mem irq member)) _

/-- The loop over interrupts 1 to 52, which is the whole loop unless the last
interrupt is offered too. -/
def selection (context : Context) (ignth : Bool) : ℕ :=
  (scan (plic.admits context ignth) plic.following (List.range' 1 (numIrq - 1))
    (0, 0)).1

/-- `next_pending_irq` reads past the end of the priorities exactly when
interrupt 53 is enabled and pending. -/
theorem nextPendingIrq_eq {context : Context}
    (present : context.isMissing = false) (ignth : Bool) :
    plic.nextPendingIrq context ignth =
      if plic.Offered context numIrq then .error .assertion
      else .ok (plic.selection context ignth) := by
  have split : List.range' 1 numIrq = List.range' 1 (numIrq - 1) ++ [numIrq] := by
    decide
  have inside : ∀ irq ∈ List.range' 1 (numIrq - 1), 0 < irq ∧ irq < numIrq := by
    decide
  have loop := plic.foldlM_considerIrq present ignth _ inside (0, 0)
  simp only [nextPendingIrq, present, Bool.not_false, assert_true, split,
    List.foldlM_append, loop, bind, Except.bind, List.foldlM_cons,
    List.foldlM_nil]
  by_cases offered : plic.Offered context numIrq
  · have both : (!plic.enabled context numIrq || !plic.pending numIrq) = false := by
      simp [offered.enabled, offered.pending]
    have past : element plic.interruptPriorities (4 * numIrq) numIrq =
        .error .assertion := rfl
    rw [if_pos offered]
    simp only [considerIrq, bind, Except.bind,
      plic.isEnabled_eq context offered.positive le_rfl,
      plic.isPending_eq offered.positive le_rfl, both, past,
      Bool.false_eq_true, if_false]
  · have kept := plic.considerIrq_of_not_offered ignth
      (scan (plic.admits context ignth) plic.following
        (List.range' 1 (numIrq - 1)) (0, 0)) (by decide) le_rfl offered
    rw [if_neg offered]
    simp only [kept]
    rfl

/-- An interrupt that the loop can select: offered, and of a positive following
priority. -/
def Selectable (context : Context) (ignth : Bool) (irq : ℕ) : Prop :=
  plic.admits context ignth irq ∧ 0 < plic.following irq

theorem selection_elected {context : Context} (ignth : Bool)
    (last : ¬ plic.Offered context numIrq) :
    ElectedElse (plic.Selectable context ignth) plic.following 0
      (plic.selection context ignth) := by
  have found := found_scan (plic.admits context ignth) plic.following (0, 0)
    (List.range' 1 (numIrq - 1)) List.pairwise_lt_range'
  have scanned : ∀ irq, plic.admits context ignth irq →
      irq ∈ List.range' 1 (numIrq - 1) := by
    intro irq admitted
    have offered : plic.Offered context irq := by
      simp only [admits, Bool.and_eq_true, decide_eq_true_eq] at admitted
      exact admitted.1
    have other : irq ≠ numIrq := fun same => last (same ▸ offered)
    have atMost := offered.atMost
    have positive := offered.positive
    rw [List.mem_range'_1]
    omega
  rcases found with ⟨same, low⟩ | ⟨_, elected⟩
  · refine Or.inl ⟨congrArg Prod.fst same, fun irq selectable => ?_⟩
    exact absurd (low irq (scanned irq selectable.1) selectable.1)
      (not_le.mpr selectable.2)
  · refine Or.inr ⟨elected.stands.2, fun irq selectable => ?_,
      fun irq selectable => ?_⟩
    · exact elected.greatest irq
        ⟨scanned irq selectable.1, selectable.1, selectable.2⟩
    · exact elected.least irq
        ⟨scanned irq selectable.1, selectable.1, selectable.2⟩

theorem Selectable.offered {plic : Plic} {context : Context} {ignth : Bool}
    {irq : ℕ} (selectable : plic.Selectable context ignth irq) :
    plic.Offered context irq := by
  have admitted := selectable.1
  simp only [admits, Bool.and_eq_true, decide_eq_true_eq] at admitted
  exact admitted.1

/-- A selection that does not fail. -/
theorem nextPendingIrq_eq_ok {context : Context} {ignth : Bool} {irq : ℕ} :
    plic.nextPendingIrq context ignth = .ok irq ↔
      context.isMissing = false ∧ ¬ plic.Offered context numIrq ∧
        ElectedElse (plic.Selectable context ignth) plic.following 0 irq := by
  cases missing : context.isMissing with
  | true => simp [nextPendingIrq, missing, bind_eq_ok, assert_eq_ok]
  | false =>
      rw [plic.nextPendingIrq_eq missing]
      by_cases offered : plic.Offered context numIrq
      · simp [offered]
      · have elected := plic.selection_elected ignth offered
        rw [if_neg offered]
        constructor
        · rintro ⟨⟩
          exact ⟨rfl, offered, elected⟩
        · rintro ⟨_, _, another⟩
          rw [elected.unique another]

end Plic

end Fu540Plic

end RiscvVp
