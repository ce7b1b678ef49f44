import Mathlib
import RiscvVp.Gpio.Output

/-!
# Interrupts on the edges of a pin

A pin's alarm is what the registers hold for its two interrupts, and how often
the PLIC has been triggered for it.  The synchronous update lets the alarm of
each pin observe the edge of that pin.  A guest clears a pending bit by writing
one; the bits are stored inverted and a write replaces the register, so that the
zeroes of the write count as well.
-/

namespace RiscvVp

namespace Hifive

open Trace

inductive Edge : Type
  | rise
  | fall
  deriving DecidableEq, Repr

/-- `rise_intr_en` and `fall_intr_en` -/
def Edge.enable : Edge → Register
  | .rise => .riseIntrEn
  | .fall => .fallIntrEn

/-- `rise_intr_pending` and `fall_intr_pending` -/
def Edge.pend : Edge → Register
  | .rise => .riseIntrPend
  | .fall => .fallIntrPend

theorem Edge.pend_injective {edge other : Edge} (same : edge.pend = other.pend) :
    edge = other := by
  cases edge <;> cases other <;> first | rfl | cases same

structure Alarm where
  enabled : Edge → Bool
  pending : Edge → Bool
  triggered : ℕ

namespace Alarm

/-- An edge triggers an interrupt that is enabled, unless it is pending. -/
def observe (edge : Edge) (alarm : Alarm) : Alarm :=
  if alarm.enabled edge && !alarm.pending edge then
    { alarm with
      pending := Function.update alarm.pending edge true
      triggered := alarm.triggered + 1 }
  else alarm

/-- Exactly one interrupt is triggered. -/
theorem triggered_observe (edge : Edge) (alarm : Alarm) :
    (alarm.observe edge).triggered =
      alarm.triggered +
        if alarm.enabled edge && !alarm.pending edge then 1 else 0 := by
  unfold observe
  split <;> rfl

theorem pending_observe (edge other : Edge) (alarm : Alarm) :
    (alarm.observe edge).pending other =
      (alarm.pending other || decide (other = edge) && alarm.enabled edge) := by
  unfold observe
  by_cases same : other = edge
  · subst same
    cases enabled : alarm.enabled other <;>
      cases pending : alarm.pending other <;> simp [pending]
  · split <;> simp [same]

end Alarm

/-- The edge that the synchronous update sees. -/
def Line.edge (line : Line) : Option Edge :=
  let state :=
    if line.state = .unset then Gpio.level line.pullup else line.state
  if line.input then
    if !line.value && state = .high then some .rise
    else if line.value && state = .low then some .fall
    else none
  else none

namespace Gpio

def alarm (pin : Pin) (gpio : Gpio) : Alarm where
  enabled edge := (gpio.regs edge.enable).getLsbD pin
  pending edge := !(gpio.regs edge.pend).getLsbD pin
  triggered := gpio.triggered.count pin

/-! ## The synchronous update -/

theorem alarm_set_pinValue (pin : Pin) (gpio : Gpio) (word : Word) :
    (gpio.set .pinValue word).alarm pin = gpio.alarm pin := by
  unfold alarm
  congr 1
  · funext edge
    cases edge <;> rfl
  · funext edge
    cases edge <;> rfl

theorem alarm_fire_self (edge : Edge) (pin : Pin) (gpio : Gpio) :
    (gpio.fire edge.enable edge.pend pin).alarm pin =
      (gpio.alarm pin).observe edge := by
  unfold fire Alarm.observe
  by_cases enabled : (gpio.regs edge.enable).getLsbD pin
  · by_cases pending : (gpio.regs edge.pend).getLsbD pin
    · have fires : ((gpio.alarm pin).enabled edge &&
          !(gpio.alarm pin).pending edge) = true := by
        simp [alarm, enabled, pending]
      rw [if_pos enabled, if_neg (by simp [pending]), if_pos fires]
      unfold alarm
      congr 1
      · funext other
        cases edge <;> cases other <;> rfl
      · funext other
        by_cases same : other = edge
        · subst same
          simp [set, pin.isLt]
        · have apart : other.pend ≠ edge.pend :=
            fun equal => same (Edge.pend_injective equal)
          simp [set, same, apart]
      · exact List.count_cons_self
    · rw [Bool.not_eq_true] at pending
      have waits : ((gpio.alarm pin).enabled edge &&
          !(gpio.alarm pin).pending edge) = false := by
        simp only [alarm, pending, Bool.not_false, Bool.not_true,
          Bool.and_false]
      have inverted : (~~~ gpio.regs edge.pend).getLsbD pin = true := by
        rw [BitVec.getLsbD_not, pending]
        simp
      rw [if_pos enabled, if_pos inverted, if_neg (by simp [waits])]
  · have silent : ((gpio.alarm pin).enabled edge &&
        !(gpio.alarm pin).pending edge) = false := by
      rw [Bool.not_eq_true] at enabled
      simp only [alarm, enabled, Bool.false_and]
    rw [if_neg enabled, if_neg (by simp [silent])]

theorem alarm_fire_of_ne {pin other : Pin} (different : other ≠ pin)
    (edge : Edge) (gpio : Gpio) :
    (gpio.fire edge.enable edge.pend pin).alarm other = gpio.alarm other := by
  have bits : other.val ≠ pin.val := fun equal => different (Fin.ext equal)
  unfold fire
  split
  · split
    · rfl
    · unfold alarm
      congr 1
      · funext seen
        cases edge <;> cases seen <;> rfl
      · funext seen
        by_cases same : seen = edge
        · subst same
          simp [set, bits]
        · have apart : seen.pend ≠ edge.pend :=
            fun equal => same (Edge.pend_injective equal)
          simp [set, apart]
      · exact List.count_cons_of_ne different.symm
  · rfl

/-- A round, by the edge of the line that it looks at. -/
theorem alarm_syncPin (pin other : Pin) (state : (Fin 64 → Pinstate) × Gpio) :
    (syncPin pin state).2.alarm other =
      match (snapshotLine pin state).edge with
      | none => state.2.alarm other
      | some edge =>
          (state.2.fire edge.enable edge.pend pin).alarm other := by
  obtain ⟨snapshot, gpio⟩ := state
  have state : (settled pin snapshot gpio) pin.number =
      if (snapshotLine pin (snapshot, gpio)).state = .unset then
        level (snapshotLine pin (snapshot, gpio)).pullup
      else (snapshotLine pin (snapshot, gpio)).state :=
    settled_self pin snapshot gpio
  have value : (snapshotLine pin (snapshot, gpio)).value =
      (gpio.line pin).value := rfl
  rw [syncPin_eq]
  unfold Line.edge
  dsimp only
  rw [← state, value]
  by_cases input : (gpio.line pin).input
  · have seen : (snapshotLine pin (snapshot, gpio)).input := input
    rw [if_pos input, if_pos seen]
    by_cases rises : (!(gpio.line pin).value &&
        settled pin snapshot gpio pin.number = .high) = true
    · rw [if_pos rises, if_pos rises, alarm_set_pinValue]
      rfl
    · rw [if_neg rises, if_neg rises]
      by_cases falls : ((gpio.line pin).value &&
          settled pin snapshot gpio pin.number = .low) = true
      · rw [if_pos falls, if_pos falls, alarm_set_pinValue]
        rfl
      · rw [if_neg falls, if_neg falls]
  · have unseen : ¬ (snapshotLine pin (snapshot, gpio)).input := input
    rw [if_neg input, if_neg unseen]

/-- A line and its alarm, while the snapshot is worked on. -/
def watch (pin : Pin) (state : (Fin 64 → Pinstate) × Gpio) : Line × Alarm :=
  (snapshotLine pin state, state.2.alarm pin)

/-- The alarm of a pin observes the edge of the pin, and nothing else. -/
theorem alarm_synchronousChange (gpio : Gpio) (pin : Pin) :
    gpio.synchronousChange.alarm pin =
      match (gpio.line pin).edge with
      | none => gpio.alarm pin
      | some edge => (gpio.alarm pin).observe edge := by
  have looped := Lanes.view_foldl_finRange
    (fun _ (watched : Line × Alarm) => (watched.1.sync,
      match watched.1.edge with
      | none => watched.2
      | some edge => watched.2.observe edge))
    (show ∀ pin state, watch pin (syncPin pin state) =
        ((snapshotLine pin state).sync,
          match (snapshotLine pin state).edge with
          | none => state.2.alarm pin
          | some edge => (state.2.alarm pin).observe edge) by
      intro pin state
      rw [watch, snapshotLine_syncPin_self, alarm_syncPin]
      cases (snapshotLine pin state).edge with
      | none => rfl
      | some edge => 
          dsimp only
          rw [alarm_fire_self])
    (show ∀ pin other state, other ≠ pin →
        watch other (syncPin pin state) = watch other state by
      intro pin other state different
      rw [watch, snapshotLine_syncPin_of_ne different, alarm_syncPin]
      cases (snapshotLine pin state).edge with
      | none => rfl
      | some edge =>
          dsimp only
          rw [alarm_fire_of_ne different]
          rfl)
    pin (gpio.pins, gpio)
  exact congrArg Prod.snd looped

/-! ## Register accesses -/

/-- What a write assigns to the bit of a pin. -/
def Access.assigned (access : Access) (pin : Pin) : Option Bool :=
  if 8 * access.offset ≤ pin.val ∧
      pin.val < 8 * (access.offset + access.len) then
    some (access.nv.getLsbD (pin.val - 8 * access.offset))
  else none

theorem Access.getLsbD_merged (access : Access) (old : Word) (pin : Pin) :
    (access.merged old).getLsbD pin =
      (access.assigned pin).getD (old.getLsbD pin) := by
  have low : (BitVec.ofNat 32 (2 ^ (8 * access.len) - 1)).getLsbD
      (pin.val - 8 * access.offset) =
        decide (pin.val - 8 * access.offset < 8 * access.len) := by
    have inside : pin.val - 8 * access.offset < 32 := by omega
    rw [BitVec.getLsbD_ofNat, Nat.testBit_two_pow_sub_one]
    simp [inside]
  unfold Access.merged Access.assigned
  simp only [BitVec.getLsbD_or, BitVec.getLsbD_and, BitVec.getLsbD_not,
    BitVec.getLsbD_shiftLeft, low, pin.isLt, decide_true, Bool.true_and]
  by_cases above : 8 * access.offset ≤ pin.val
  · by_cases below : pin.val < 8 * (access.offset + access.len)
    · have part : pin.val - 8 * access.offset < 8 * access.len := by omega
      rw [if_pos ⟨above, below⟩]
      simp [part, Nat.not_lt.mpr above]
    · have beyond : ¬ pin.val - 8 * access.offset < 8 * access.len := by omega
      rw [if_neg fun both => below both.2]
      simp [beyond]
  · have before : pin.val < 8 * access.offset := Nat.lt_of_not_le above
    rw [if_neg fun both => above both.1]
    simp [before]

theorem triggered_forPins {round : Pin → Gpio → Gpio}
    (kept : ∀ pin gpio, (round pin gpio).triggered = gpio.triggered)
    (gpio : Gpio) : (forPins round gpio).triggered = gpio.triggered := by
  unfold forPins
  induction List.finRange 32 generalizing gpio with
  | nil => rfl
  | cons pin pins inductionHypothesis =>
      rw [List.foldl_cons, inductionHypothesis, kept]

theorem triggered_onPort (nv : Word) (gpio : Gpio) :
    (gpio.onPort nv).triggered = gpio.triggered := by
  unfold onPort
  dsimp only
  split
  · rfl
  · apply triggered_forPins
    intro pin gpio
    split <;> rfl

theorem triggered_onPullup (nv : Word) (gpio : Gpio) :
    (gpio.onPullup nv).triggered = gpio.triggered := by
  apply triggered_forPins
  intro pin gpio
  split <;> rfl

theorem triggered_onOutputEn (nv : Word) (gpio : Gpio) :
    (gpio.onOutputEn nv).triggered = gpio.triggered := by
  apply triggered_forPins
  intro pin gpio
  split
  · rfl
  · split <;> rfl

theorem triggered_onIof (gpio : Gpio) :
    gpio.onIof.triggered = gpio.triggered := by
  apply triggered_forPins
  intro pin gpio
  dsimp only
  split
  · split <;> rfl
  · rfl

theorem regs_onIof (gpio : Gpio) : gpio.onIof.regs = gpio.regs := by
  apply regs_forPins
  intro pin gpio
  dsimp only
  split
  · split <;> rfl
  · rfl

/-- Whatever the callback does, no interrupt is triggered. -/
theorem triggered_registerAccessCallback (gpio : Gpio) (access : Access) :
    (gpio.registerAccessCallback access).triggered = gpio.triggered := by
  unfold registerAccessCallback
  split
  · split
    · rfl
    · exact triggered_onPort access.nv gpio
    · exact triggered_onPullup access.nv gpio
    · exact triggered_onOutputEn access.nv gpio
    · exact triggered_onIof _
    · exact triggered_onIof _
    · rfl
  · rfl

/-- Of the registers that the callback does not assign itself, a write replaces
the one that it is for. -/
theorem regs_registerAccessCallback (gpio : Gpio) (access : Access)
    {register : Register} (other : register ≠ .pinValue) :
    (gpio.registerAccessCallback access).regs register =
      if register = access.register then
        access.merged (gpio.regs register)
      else gpio.regs register := by
  have performed : ∀ between : Gpio,
      between.regs register = gpio.regs register →
        (between.perform access).regs register =
          if register = access.register then
            access.merged (gpio.regs register)
          else gpio.regs register := by
    intro between same
    by_cases here : register = access.register
    · subst here
      rw [if_pos rfl, ← same]
      exact Function.update_self _ _ _
    · rw [if_neg here, ← same]
      exact Function.update_of_ne here _ _
  unfold registerAccessCallback
  split
  · split
    case h_1 written => rw [if_neg (written ▸ other)]
    · exact performed _ (regs_onPort access.nv gpio other)
    · exact performed _ (regs_onPullup access.nv gpio other)
    · exact performed _ (regs_onOutputEn access.nv gpio other)
    · rw [regs_onIof]
      exact performed _ rfl
    · rw [regs_onIof]
      exact performed _ rfl
    · exact performed _ rfl
  · exact performed _ rfl

theorem pending_registerAccessCallback (gpio : Gpio) (access : Access)
    (pin : Pin) (edge : Edge) :
    ((gpio.registerAccessCallback access).alarm pin).pending edge =
      if edge.pend = access.register then
        ((access.assigned pin).map not).getD ((gpio.alarm pin).pending edge)
      else (gpio.alarm pin).pending edge := by
  have plain : edge.pend ≠ .pinValue := by cases edge <;> decide
  unfold alarm
  dsimp only
  rw [regs_registerAccessCallback gpio access plain]
  split
  · rw [Access.getLsbD_merged]
    cases access.assigned pin <;> rfl
  · rfl

/-! ## Events -/

/-- An edge that has to trigger an interrupt. -/
def raises (gpio : Gpio) (pin : Pin) (edge : Edge) : Event → Bool
  | .synchronous => (gpio.line pin).edge = some edge &&
      (gpio.alarm pin).enabled edge && !(gpio.alarm pin).pending edge
  | _ => false

/-- A guest writes one to a pending bit. -/
def acknowledges (pin : Pin) (edge : Edge) : Event → Bool
  | .write access =>
      edge.pend = access.register && access.assigned pin = some true
  | _ => false

/-- What is claimed of an event and a pin: one interrupt for each edge that has
to trigger one, and the pending bits that are raised or acknowledged change. -/
structure Handled (gpio : Gpio) (event : Event) (pin : Pin) : Prop where
  triggered : ((gpio.step event).alarm pin).triggered =
    (gpio.alarm pin).triggered + ((gpio.raises pin .rise event).toNat +
      (gpio.raises pin .fall event).toNat)
  pending : ∀ edge, ((gpio.step event).alarm pin).pending edge =
    ((gpio.alarm pin).pending edge && !acknowledges pin edge event ||
      gpio.raises pin edge event)

/-- A write to a pending register has zeroes only where a pin is pending. -/
def Sparing (gpio : Gpio) : Event → Prop
  | .write access => ∀ edge : Edge, edge.pend = access.register → ∀ pin,
      access.assigned pin = some false → (gpio.alarm pin).pending edge = true
  | _ => True

theorem handled_synchronous (gpio : Gpio) (pin : Pin) :
    gpio.Handled .synchronous pin := by
  have stepped : (gpio.step .synchronous).alarm pin =
      match (gpio.line pin).edge with
      | none => gpio.alarm pin
      | some edge => (gpio.alarm pin).observe edge :=
    alarm_synchronousChange gpio pin
  constructor
  · rw [stepped]
    simp only [raises]
    cases (gpio.line pin).edge with
    | none => simp
    | some edge =>
        dsimp only
        rw [Alarm.triggered_observe]
        cases edge <;> simp [Bool.toNat, Bool.cond_eq_ite]
  · intro edge
    rw [stepped]
    simp only [raises, acknowledges, Bool.not_false, Bool.and_true]
    cases (gpio.line pin).edge with
    | none => simp
    | some seen =>
        dsimp only
        rw [Alarm.pending_observe]
        cases (gpio.alarm pin).pending edge <;> cases edge <;> cases seen <;>
          simp

theorem alarm_setBit (gpio : Gpio) (changed : Fin 64) (val : Tristate)
    (pin : Pin) : (gpio.setBit changed val).alarm pin = gpio.alarm pin := by
  unfold setBit asyncOnchange
  split
  · rfl
  · cases val <;> rfl

theorem handled_client (gpio : Gpio) (changed : Fin 64) (val : Tristate)
    (pin : Pin) : gpio.Handled (.client changed val) pin := by
  have stepped : (gpio.step (.client changed val)).alarm pin =
      gpio.alarm pin := alarm_setBit gpio changed val pin
  constructor
  · rw [stepped]
    rfl
  · intro edge
    rw [stepped]
    simp [raises, acknowledges]

theorem handled_write_iff (gpio : Gpio) (access : Access) (pin : Pin) :
    gpio.Handled (.write access) pin ↔
      ∀ edge : Edge, edge.pend = access.register →
        access.assigned pin = some false →
          (gpio.alarm pin).pending edge = true := by
  have count : ((gpio.step (.write access)).alarm pin).triggered =
      (gpio.alarm pin).triggered :=
    congrArg (List.count pin) (triggered_registerAccessCallback gpio access)
  have pended := pending_registerAccessCallback gpio access pin
  constructor
  · intro handled edge here zero
    have pending := handled.pending edge
    rw [step, pended, if_pos here, zero] at pending
    simpa [acknowledges, raises, zero] using pending.symm
  · intro sparing
    refine ⟨count, fun edge => ?_⟩
    rw [step, pended]
    by_cases here : edge.pend = access.register
    · rw [if_pos here]
      cases assigned : access.assigned pin with
      | none => simp [acknowledges, raises, assigned]
      | some bit =>
          cases bit with
          | false =>
              have pending := sparing edge here assigned
              simp [acknowledges, raises, assigned, pending]
          | true => simp [acknowledges, raises, assigned, here]
    · rw [if_neg here]
      simp [acknowledges, raises, here]

/-- An event is handled as it should be exactly if it is sparing. -/
theorem handled_iff_sparing (gpio : Gpio) (event : Event) :
    (∀ pin, gpio.Handled event pin) ↔ gpio.Sparing event := by
  cases event with
  | write access =>
      constructor
      · intro handled edge here pin zero
        exact (handled_write_iff gpio access pin).mp (handled pin) edge here
          zero
      · intro sparing pin
        rw [handled_write_iff]
        intro edge here zero
        exact sparing edge here pin zero
  | client changed val =>
      exact iff_of_true (handled_client gpio changed val) trivial
  | synchronous => exact iff_of_true (handled_synchronous gpio) trivial

/-- Along any run, every edge interrupts once and every acknowledgement clears
its own bit alone exactly if all writes to pending registers are sparing. -/
theorem interrupts_iff_sparing (events : List Event) :
    EveryEvent Steps (fun gpio event => ∀ pin, gpio.Handled event pin)
        events .boot ↔
      EveryEvent Steps Sparing events .boot := by
  have kept : ∀ gpio event later, True → Steps gpio event later → True :=
    fun _ _ _ _ _ => trivial
  refine everyEvent_congr kept ?_ trivial
  intro gpio event _
  exact handled_iff_sparing gpio event

/-- Pin 3 rises, and the guest clears its pending bit. -/
def acknowledgeRise : List Event :=
  [.write (.whole .inputEn 40), .write (.whole .riseIntrEn 40),
    .client 3 .high, .synchronous, .write (.whole .riseIntrPend 8)]

/-- Pin 5 becomes pending. -/
theorem not_interrupts :
    ¬ ∀ events, EveryEvent Steps
      (fun gpio event => ∀ pin, gpio.Handled event pin) events .boot := by
  intro every
  have run := every acknowledgeRise
  obtain ⟨handled, _⟩ := ((((run.2 _ rfl).2 _ rfl).2 _ rfl).2 _ rfl)
  have pending := (handled 5).pending .rise
  exact absurd pending (by decide +kernel)

-- The edge of pin 5 that comes then is lost.
example : ((acknowledgeRise ++ [Event.client 5 .high, .synchronous]).foldl
    step boot).triggered = [3] := by decide +kernel

end Gpio

end Hifive

end RiscvVp
