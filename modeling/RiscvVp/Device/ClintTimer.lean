import Mathlib
import RiscvVp.Device.ClintTime

/-!
# The timer interrupts

After an activation of `run` every hart's timer interrupt is asserted exactly
when its compare value is set and reached.  For a value that is still to come
the thread notifies its event, and of all notifications the earliest remains;
the time it computes is the right one exactly when the compare value fits into
64 bits in picoseconds.
-/

namespace RiscvVp

namespace Clint

open Device

/-- The compare value is set and reached. -/
def Due (clint : Clint) (hart : ℕ) : Prop :=
  0 < clint.mtimecmp hart ∧ clint.mtimecmp hart ≤ clint.mtime

instance (clint : Clint) (hart : ℕ) : Decidable (clint.Due hart) :=
  inferInstanceAs (Decidable (_ ∧ _))

/-- The compare value is set and still to come. -/
def Pending (clint : Clint) (hart : ℕ) : Prop :=
  0 < clint.mtimecmp hart ∧ clint.mtime < clint.mtimecmp hart

/-- A wake-up is placed before the end of the tick in which the compare value
is reached, and nothing overflows on the way. -/
structure WakesInTime (clint : Clint) (hart : ℕ) : Prop where
  goal : (clint.mtimecmp hart * scaler).toNat =
    (clint.mtimecmp hart).toNat * scaler.toNat
  delay : ∃ delay,
    goalMinusTime clint.mtime (clint.mtimecmp hart) = some delay ∧
      delay.toNat =
        ((clint.mtimecmp hart).toNat - clint.mtime.toNat) * scaler.toNat
  wake : ∃ wake, clint.irqEvent = some wake ∧
    wake ≤ ((clint.mtimecmp hart).toNat + 1) * scaler.toNat

/-- What an activation owes to a hart. -/
structure TimerHolds (clint : Clint) (hart : ℕ) : Prop where
  asserted : clint.timerInterrupt hart = decide (clint.Due hart)
  scheduled : clint.Pending hart → clint.WakesInTime hart

/-! ## The loop -/

section Loop

variable (stamp : BitVec 64) (clint : Clint)

theorem regsMtimecmp_process (hart : ℕ) :
    (clint.process stamp hart).regsMtimecmp = clint.regsMtimecmp := by
  unfold process
  dsimp only
  split
  · rfl
  split
  · rfl
  · rfl

theorem regsMtimecmp_processes (harts : List ℕ) :
    (harts.foldl (process stamp) clint).regsMtimecmp =
      clint.regsMtimecmp := by
  induction harts generalizing clint with
  | nil => rfl
  | cons hart rest inductionHypothesis =>
      rw [List.foldl_cons, inductionHypothesis, regsMtimecmp_process]

theorem due_congr {later : Clint} (hart : ℕ)
    (mtime : later.regsMtime = clint.regsMtime)
    (mtimecmp : later.regsMtimecmp = clint.regsMtimecmp) :
    later.Due hart ↔ clint.Due hart := by
  unfold Due Clint.mtime Clint.mtimecmp
  rw [mtime, mtimecmp]

/-- The body of the loop tells one target. -/
theorem timerInterrupt_process (hart other : ℕ) :
    (clint.process stamp hart).timerInterrupt other =
      if other = hart then decide (clint.Due hart)
      else clint.timerInterrupt other := by
  have told (later : Clint) (status : Bool)
      (same : later.timerInterrupt =
        (clint.triggerTimerInterrupt hart status).timerInterrupt)
      (value : decide (clint.Due hart) = status) :
      later.timerInterrupt other =
        if other = hart then decide (clint.Due hart)
        else clint.timerInterrupt other := by
    rw [same, value]
    rfl
  unfold process
  dsimp only
  split
  next due => exact told _ true rfl (decide_eq_true due)
  next due =>
    split
    · exact told _ false rfl (decide_eq_false due)
    · exact told _ false rfl (decide_eq_false due)

/-- A notification only ever becomes earlier. -/
theorem exists_irqEvent_process (hart : ℕ) {wake : ℕ}
    (notified : clint.irqEvent = some wake) :
    ∃ earlier, (clint.process stamp hart).irqEvent = some earlier ∧
      earlier ≤ wake := by
  unfold process
  dsimp only
  split
  · exact ⟨wake, notified, Nat.le_refl _⟩
  split
  next delay _ =>
    refine ⟨min wake (stamp.toNat + delay.toNat), ?_, Nat.min_le_left _ _⟩
    unfold notify triggerTimerInterrupt
    rw [notified]
  · exact ⟨wake, notified, Nat.le_refl _⟩

theorem exists_irqEvent_processes (harts : List ℕ) {wake : ℕ}
    (notified : clint.irqEvent = some wake) :
    ∃ earlier, (harts.foldl (process stamp) clint).irqEvent = some earlier ∧
      earlier ≤ wake := by
  induction harts generalizing clint wake with
  | nil => exact ⟨wake, notified, Nat.le_refl _⟩
  | cons hart rest inductionHypothesis =>
      obtain ⟨first, sooner, below⟩ :=
        exists_irqEvent_process stamp clint hart notified
      obtain ⟨last, final, below'⟩ := inductionHypothesis _ sooner
      exact ⟨last, final, Nat.le_trans below' below⟩

/-- The body notifies the event for a hart whose value is still to come. -/
theorem exists_irqEvent_of_delay (hart : ℕ) (pending : clint.Pending hart)
    {delay : BitVec 64}
    (computed : goalMinusTime clint.mtime (clint.mtimecmp hart) =
      some delay) :
    ∃ wake, (clint.process stamp hart).irqEvent = some wake ∧
      wake ≤ stamp.toNat + delay.toNat := by
  have early : ¬ (0 < clint.mtimecmp hart ∧
      clint.mtimecmp hart ≤ clint.mtime) := fun due =>
    BitVec.not_lt.2 due.2 pending.2
  unfold process
  dsimp only
  rw [if_neg early, computed]
  dsimp only [notify, triggerTimerInterrupt]
  cases clint.irqEvent with
  | none => exact ⟨_, rfl, Nat.le_refl _⟩
  | some notified => exact ⟨_, rfl, Nat.min_le_right _ _⟩

/-- The loop tells every target it comes to. -/
theorem timerInterrupt_processes (harts : List ℕ) (hart : ℕ) :
    (harts.foldl (process stamp) clint).timerInterrupt hart =
      if hart ∈ harts then decide (clint.Due hart)
      else clint.timerInterrupt hart := by
  induction harts generalizing clint with
  | nil => simp
  | cons first rest inductionHypothesis =>
      have kept : decide ((clint.process stamp first).Due hart) =
          decide (clint.Due hart) :=
        decide_eq_decide.2 <| due_congr clint hart
          (regsMtime_process stamp clint first)
          (regsMtimecmp_process stamp clint first)
      rw [List.foldl_cons, inductionHypothesis, kept, timerInterrupt_process]
      by_cases later : hart ∈ rest
      · simp [later]
      · by_cases now : hart = first
        · subst now
          simp [later]
        · simp [later, now]

/-- The loop notifies the event for every hart it comes to whose value is
still to come. -/
theorem exists_irqEvent_of_mem (harts : List ℕ) {hart : ℕ}
    (member : hart ∈ harts) (pending : clint.Pending hart)
    {delay : BitVec 64}
    (computed : goalMinusTime clint.mtime (clint.mtimecmp hart) =
      some delay) :
    ∃ wake, (harts.foldl (process stamp) clint).irqEvent = some wake ∧
      wake ≤ stamp.toNat + delay.toNat := by
  induction harts generalizing clint with
  | nil => cases member
  | cons first rest inductionHypothesis =>
      rw [List.foldl_cons]
      by_cases here : hart = first
      · subst here
        obtain ⟨wake, notified, below⟩ :=
          exists_irqEvent_of_delay stamp clint hart pending computed
        obtain ⟨earlier, final, sooner⟩ :=
          exists_irqEvent_processes stamp _ rest notified
        exact ⟨earlier, final, Nat.le_trans sooner below⟩
      · have later : hart ∈ rest := (List.mem_cons.1 member).resolve_left here
        have mtime : (clint.process stamp first).mtime = clint.mtime :=
          mtime_congr (regsMtime_process stamp clint first)
        have mtimecmp : (clint.process stamp first).mtimecmp hart =
            clint.mtimecmp hart := by
          unfold Clint.mtimecmp
          rw [regsMtimecmp_process]
        apply inductionHypothesis _ later
        · unfold Pending
          rw [mtime, mtimecmp]
          exact pending
        · rw [mtime, mtimecmp]
          exact computed

end Loop

/-! ## The computation -/

theorem toNat_scaler : scaler.toNat = 1000000 :=
  rfl

/-- The computed delay is the exact one when the goal fits. -/
theorem toNat_goalMinusTime {mtime cmp : BitVec 64} (later : mtime < cmp)
    (fits : cmp.toNat * scaler.toNat < 2 ^ 64) :
    ∃ delay, goalMinusTime mtime cmp = some delay ∧
      delay.toNat = (cmp.toNat - mtime.toNat) * scaler.toNat := by
  have order : mtime.toNat < cmp.toNat := later
  rw [toNat_scaler] at fits ⊢
  have finite : 0 < cmp ∧ cmp < uint64Max := by
    have positive : 0 < cmp.toNat := by omega
    have bounded : cmp.toNat < uint64Max.toNat := by
      change cmp.toNat < 18446744073709551615
      omega
    exact ⟨positive, bounded⟩
  refine ⟨_, if_pos finite, ?_⟩
  have below : mtime.toNat * 1000000 ≤ cmp.toNat * 1000000 :=
    Nat.mul_le_mul_right _ (Nat.le_of_lt order)
  have goal : (cmp * scaler).toNat = cmp.toNat * 1000000 := by
    rw [BitVec.toNat_mul, toNat_scaler, Nat.mod_eq_of_lt fits]
  have time : (mtime * scaler).toNat = mtime.toNat * 1000000 := by
    rw [BitVec.toNat_mul, toNat_scaler,
      Nat.mod_eq_of_lt (Nat.lt_of_le_of_lt below fits)]
  have before : mtime * scaler ≤ cmp * scaler := by
    rw [BitVec.le_def, goal, time]
    exact below
  rw [BitVec.toNat_sub_of_le before, goal, time, Nat.sub_mul]

theorem stamp_lt_updateAndGetMtime (stamp : BitVec 64) (clint : Clint) :
    stamp.toNat <
      ((clint.updateAndGetMtime stamp).2.mtime.toNat + 1) *
        scaler.toNat := by
  have tick : (stamp / scaler).toNat ≤
      (clint.updateAndGetMtime stamp).2.mtime.toNat := by
    unfold updateAndGetMtime
    dsimp only
    split
    next =>
      apply Nat.le_of_eq
      rw [mtime_setMtime]
    next ahead => exact BitVec.not_lt.1 ahead
  have quotient : (stamp / scaler).toNat = stamp.toNat / 1000000 :=
    BitVec.toNat_udiv
  rw [toNat_scaler]
  omega

/-! ## An activation -/

section Activation

variable (numberOfCores : ℕ) (stamp : BitVec 64) (clint : Clint)

theorem mtimecmp_run (hart : ℕ) :
    (clint.run numberOfCores stamp).mtimecmp hart = clint.mtimecmp hart := by
  unfold run mtimecmp updateAndGetMtime
  rw [regsMtimecmp_processes]
  dsimp only
  split <;> rfl

theorem timerInterrupt_run {hart : ℕ} (inside : hart < numberOfCores) :
    (clint.run numberOfCores stamp).timerInterrupt hart =
      decide ((clint.run numberOfCores stamp).Due hart) := by
  unfold run
  rw [timerInterrupt_processes, if_pos (List.mem_range.2 inside)]
  apply decide_eq_decide.2
  symm
  exact due_congr _ hart (regsMtime_processes _ _ _)
    (regsMtimecmp_processes _ _ _)

/-- The time of a wake-up is right when the compare value fits. -/
theorem wakesInTime_run {hart : ℕ} (inside : hart < numberOfCores)
    (pending : (clint.run numberOfCores stamp).Pending hart)
    (fits : (clint.mtimecmp hart).toNat * scaler.toNat < 2 ^ 64) :
    (clint.run numberOfCores stamp).WakesInTime hart := by
  have mtime := mtime_run numberOfCores stamp clint
  have mtimecmp := mtimecmp_run numberOfCores stamp clint hart
  have order := pending.2
  obtain ⟨delay, computed, exactly⟩ :=
    toNat_goalMinusTime order (mtimecmp.symm ▸ fits)
  refine ⟨?_, ⟨delay, computed, exactly⟩, ?_⟩
  · rw [mtimecmp, BitVec.toNat_mul, Nat.mod_eq_of_lt fits]
  · have start : ({ (clint.updateAndGetMtime stamp).2 with
        irqEvent := none } : Clint).Pending hart ∧
        goalMinusTime (clint.updateAndGetMtime stamp).2.mtime
          ((clint.updateAndGetMtime stamp).2.mtimecmp hart) =
            some delay := by
      have same : (clint.updateAndGetMtime stamp).2.mtimecmp hart =
          clint.mtimecmp hart := by
        unfold updateAndGetMtime
        dsimp only
        split <;> rfl
      rw [Pending, mtime, mtimecmp] at pending
      rw [mtime, mtimecmp] at computed
      rw [← same] at pending computed
      exact ⟨pending, computed⟩
    obtain ⟨wake, notified, below⟩ := exists_irqEvent_of_mem stamp _
      (List.range numberOfCores) (List.mem_range.2 inside) start.1 start.2
    refine ⟨wake, notified, ?_⟩
    have ahead := stamp_lt_updateAndGetMtime stamp clint
    rw [← mtime] at ahead
    have ordered : (clint.run numberOfCores stamp).mtime.toNat <
        ((clint.run numberOfCores stamp).mtimecmp hart).toNat := order
    rw [exactly] at below
    rw [toNat_scaler] at below ahead ⊢
    omega

/-- An activation does what it owes to every hart exactly when every compare
value that is set and still to come fits into 64 bits in picoseconds. -/
theorem timerHolds_run_iff :
    (∀ hart, hart < numberOfCores →
        (clint.run numberOfCores stamp).TimerHolds hart) ↔
      ∀ hart, hart < numberOfCores → 0 < clint.mtimecmp hart →
        (clint.updateAndGetMtime stamp).2.mtime < clint.mtimecmp hart →
          (clint.mtimecmp hart).toNat * scaler.toNat < 2 ^ 64 := by
  have mtime := mtime_run numberOfCores stamp clint
  have mtimecmp := mtimecmp_run numberOfCores stamp clint
  apply forall_congr'
  intro hart
  apply imp_congr_right
  intro inside
  constructor
  · intro holds positive later
    have pending : (clint.run numberOfCores stamp).Pending hart := by
      rw [Pending, mtime, mtimecmp]
      exact ⟨positive, later⟩
    have goal := (holds.scheduled pending).goal
    rw [mtimecmp] at goal
    rw [← goal]
    exact BitVec.isLt _
  · intro fits
    refine ⟨timerInterrupt_run numberOfCores stamp clint inside,
      fun pending => ?_⟩
    apply wakesInTime_run numberOfCores stamp clint inside pending
    rw [Pending, mtime, mtimecmp] at pending
    exact fits pending.1 pending.2

end Activation

/-- A guest has written the upper half of the compare value of hart 0 only. -/
def halfWritten : Clint :=
  { reset with regsMtimecmp :=
      Storage.zeroed.setDoubleWord 0 0xFFFFFFFF00000000 }

theorem not_timerHolds :
    ¬ ∀ hart, hart < 1 → (halfWritten.run 1 1000000).TimerHolds hart := by
  intro holds
  have pending : (halfWritten.run 1 1000000).Pending 0 :=
    ⟨by decide +kernel, by decide +kernel⟩
  have goal := ((holds 0 (by decide)).scheduled pending).goal
  exact absurd goal (by decide +kernel)

end Clint

end RiscvVp
