import Mathlib
import RiscvVp.Bits.Lanes
import RiscvVp.Device.Trace
import RiscvVp.Gpio.Registers

/-!
# The value of an output

A pin's line is what the registers and the server say about that one pin.  Every
event does to each line what a function of the line says, so that what holds of
outputs is decided line by line.
-/

namespace RiscvVp

namespace Hifive

open Trace

/-- The bits of a pin, and its state in the server. -/
structure Line where
  value : Bool
  input : Bool
  output : Bool
  port : Bool
  pullup : Bool
  iof : Bool
  select : Bool
  state : Pinstate
  deriving DecidableEq, Repr

namespace Line

/-- Assign a register's bit. -/
def store (register : Register) (bit : Bool) (line : Line) : Line :=
  match register with
  | .pinValue => { line with value := bit }
  | .inputEn => { line with input := bit }
  | .outputEn => { line with output := bit }
  | .port => { line with port := bit }
  | .pullupEn => { line with pullup := bit }
  | .iofEn => { line with iof := bit }
  | .iofSel => { line with select := bit }
  | _ => line

/-- The new level of an enabled output that has no I/O function. -/
def enabledPort (bit : Bool) (line : Line) : Bool :=
  bit && line.output && !line.iof

def onPort (nv : Bool) (line : Line) : Line :=
  { line with
    value := line.value && !line.output || line.enabledPort nv
    state :=
      if line.enabledPort nv ^^ line.enabledPort line.port then
        Gpio.level (line.enabledPort nv)
      else line.state }

def onPullup (nv : Bool) (line : Line) : Line :=
  let pulled := (nv ^^ line.pullup) && nv
  { line with
    value := line.value || pulled
    state := if pulled then .high else line.state }

def onOutputEn (nv : Bool) (line : Line) : Line :=
  let value := line.value && !line.output || line.port && nv
  { line with
    value := value
    state :=
      if line.output && !nv then .unset
      else if !line.output && nv then Gpio.level value
      else line.state }

def onIof (pin : Pin) (line : Line) : Line :=
  { line with
    state :=
      if line.iof && getIof pin line.select ≠ .unset then
        getIof pin line.select
      else line.state }

def setBit (val : Tristate) (line : Line) : Line :=
  if line.state.isIof then line
  else
    match val with
    | .unset => { line with state := .unset }
    | .low => { line with state := .low }
    | .high => { line with state := .high }
    | .invalid => line

def sync (line : Line) : Line :=
  if line.input then
    let state :=
      if line.state = .unset then Gpio.level line.pullup else line.state
    if !line.value && state = .high then
      { line with value := true, state := state }
    else if line.value && state = .low then
      { line with value := false, state := state }
    else { line with state := state }
  else line

end Line

namespace Gpio

def line (pin : Pin) (gpio : Gpio) : Line where
  value := (gpio.regs .pinValue).getLsbD pin
  input := (gpio.regs .inputEn).getLsbD pin
  output := (gpio.regs .outputEn).getLsbD pin
  port := (gpio.regs .port).getLsbD pin
  pullup := (gpio.regs .pullupEn).getLsbD pin
  iof := (gpio.regs .iofEn).getLsbD pin
  select := (gpio.regs .iofSel).getLsbD pin
  state := gpio.pins pin.number

attribute [local simp] Line.store

/-! ## Assignments -/

theorem line_set (pin : Pin) (gpio : Gpio) (register : Register) (word : Word) :
    (gpio.set register word).line pin =
      (gpio.line pin).store register (word.getLsbD pin) := by
  cases register <;> simp [line, set]

theorem line_setPin_self (pin : Pin) (gpio : Gpio) (state : Pinstate) :
    (gpio.setPin pin.number state).line pin =
      { gpio.line pin with state := state } := by
  simp [line, setPin]

theorem number_injective {pin other : Pin} (different : other ≠ pin) :
    other.number ≠ pin.number := by
  intro same
  exact different (Fin.castLE_injective _ same)

theorem line_setPin_of_ne {pin other : Pin} (different : other ≠ pin)
    (gpio : Gpio) (state : Pinstate) :
    (gpio.setPin pin.number state).line other = gpio.line other := by
  simp [line, setPin, number_injective different]

theorem line_pushPin (pin other : Pin) (gpio : Gpio) (state : Tristate) :
    (gpio.pushPin pin state).line other = gpio.line other :=
  rfl

theorem line_drive_self (pin : Pin) (gpio : Gpio) (high : Bool) :
    (gpio.drive pin high).line pin =
      { gpio.line pin with state := level high } := by
  rw [drive, line_pushPin, line_setPin_self]

theorem line_drive_of_ne {pin other : Pin} (different : other ≠ pin)
    (gpio : Gpio) (high : Bool) :
    (gpio.drive pin high).line other = gpio.line other := by
  rw [drive, line_pushPin, line_setPin_of_ne different]

/-! ## Events, line by line -/

/-- A loop that sets the states of some pins. -/
theorem line_forPins {round : Pin → Gpio → Gpio}
    (states : Pin → Line → Pinstate)
    (own : ∀ pin gpio, (round pin gpio).line pin =
      { gpio.line pin with state := states pin (gpio.line pin) })
    (apart : ∀ pin other gpio, other ≠ pin →
      (round pin gpio).line other = gpio.line other)
    (pin : Pin) (gpio : Gpio) :
    (forPins round gpio).line pin =
      { gpio.line pin with state := states pin (gpio.line pin) } :=
  Lanes.view_foldl_finRange
    (fun pin (line : Line) => { line with state := states pin line })
    own apart pin gpio

theorem line_onPort (nv : Word) (gpio : Gpio) :
    (∀ pin, (gpio.onPort nv).line pin =
        (gpio.line pin).onPort (nv.getLsbD pin)) ∨
      (∀ pin, (gpio.onPort nv).line pin = gpio.line pin ∧
        (gpio.line pin).enabledPort (nv.getLsbD pin) =
          (gpio.line pin).enabledPort (gpio.line pin).port) := by
  let enabled := (nv &&& gpio.regs .outputEn) &&& ~~~ gpio.regs .iofEn
  let changed := enabled ^^^
    ((gpio.regs .port &&& gpio.regs .outputEn) &&& ~~~ gpio.regs .iofEn)
  by_cases changes : changed = 0
  · right
    intro pin
    have bit := congrArg (fun word : Word => word.getLsbD pin) changes
    refine ⟨congrArg (line pin) (if_pos changes), ?_⟩
    simpa [changed, enabled, line, Line.enabledPort] using bit
  · left
    intro pin
    have stands : gpio.onPort nv = forPins (fun pin gpio =>
        if changed.getLsbD pin then gpio.drive pin (enabled.getLsbD pin)
        else gpio)
        (gpio.set .pinValue
          ((gpio.regs .pinValue &&& ~~~ gpio.regs .outputEn) ||| enabled)) :=
      if_neg changes
    rw [stands, line_forPins fun pin line =>
      if changed.getLsbD pin then level (enabled.getLsbD pin) else line.state]
    · rw [line_set]
      simp [line, Line.onPort, Line.enabledPort, changed, enabled]
    · intro pin gpio
      split
      · rw [line_drive_self]
      · rfl
    · intro pin other gpio different
      split
      · exact line_drive_of_ne different gpio _
      · rfl

theorem line_onPullup (nv : Word) (gpio : Gpio) (pin : Pin) :
    (gpio.onPullup nv).line pin =
      (gpio.line pin).onPullup (nv.getLsbD pin) := by
  unfold onPullup
  rw [line_forPins fun pin line =>
    if ((nv ^^^ gpio.regs .pullupEn) &&& nv).getLsbD pin then .high
    else line.state]
  · rw [line_set]
    simp [line, Line.onPullup]
  · intro pin gpio
    split
    · rw [line_setPin_self]
    · rfl
  · intro pin other gpio different
    split
    · exact line_setPin_of_ne different gpio _
    · rfl

theorem line_onOutputEn (nv : Word) (gpio : Gpio) (pin : Pin) :
    (gpio.onOutputEn nv).line pin =
      (gpio.line pin).onOutputEn (nv.getLsbD pin) := by
  let value := (gpio.regs .pinValue &&& ~~~ gpio.regs .outputEn) |||
    (gpio.regs .port &&& nv)
  unfold onOutputEn
  rw [line_forPins fun pin line =>
    if (gpio.regs .outputEn &&& ~~~ nv).getLsbD pin then .unset
    else if (~~~ gpio.regs .outputEn &&& nv).getLsbD pin then
      level (value.getLsbD pin)
    else line.state]
  · rw [line_set]
    simp [line, Line.onOutputEn, value]
  · intro pin gpio
    split
    · rw [line_pushPin, line_setPin_self]
    · split
      · rw [line_drive_self]
      · rfl
  · intro pin other gpio different
    split
    · rw [line_pushPin, line_setPin_of_ne different]
    · split
      · exact line_drive_of_ne different gpio _
      · rfl

theorem line_onIof (gpio : Gpio) (pin : Pin) :
    gpio.onIof.line pin = (gpio.line pin).onIof pin := by
  unfold onIof
  rw [line_forPins fun pin line =>
    if line.iof && getIof pin line.select ≠ .unset then
      getIof pin line.select
    else line.state]
  · rfl
  · intro pin gpio
    dsimp only
    split
    case isTrue enabled =>
      have iof : (gpio.line pin).iof = true := enabled
      split
      case isTrue missing =>
        have unset : getIof pin (gpio.line pin).select = .unset := missing
        rw [if_neg (by simp [unset])]
      case isFalse present =>
        have function : getIof pin (gpio.line pin).select ≠ .unset := present
        rw [line_setPin_self, if_pos (by simp [iof, function])]
        rfl
    case isFalse disabled =>
      have plain : ¬ (gpio.line pin).iof = true := disabled
      rw [if_neg (by simp [plain])]
  · intro pin other gpio different
    dsimp only
    split
    · split
      · rfl
      · exact line_setPin_of_ne different gpio _
    · rfl

theorem line_setBit_self (gpio : Gpio) (pin : Pin) (val : Tristate) :
    (gpio.setBit pin.number val).line pin = (gpio.line pin).setBit val := by
  unfold setBit Line.setBit
  split
  case isTrue function =>
    have ignored : (gpio.line pin).state.isIof = true := function
    rw [if_pos ignored]
  case isFalse plain =>
    have heard : ¬ (gpio.line pin).state.isIof = true := plain
    rw [if_neg heard]
    cases val with
    | invalid => rfl
    | unset | low | high => exact line_setPin_self pin gpio _

theorem line_setBit_of_ne (gpio : Gpio) {pin : Pin} {changed : Fin 64}
    (different : pin.number ≠ changed) (val : Tristate) :
    (gpio.setBit changed val).line pin = gpio.line pin := by
  unfold setBit asyncOnchange
  split
  · rfl
  · cases val <;> simp [line, setPin, different]

/-! ## The synchronous update -/

/-- A line with the state of the snapshot. -/
def snapshotLine (pin : Pin) (state : (Fin 64 → Pinstate) × Gpio) : Line :=
  { state.2.line pin with state := state.1 pin.number }

theorem line_fire (enabled pending : Register) (pin other : Pin) (gpio : Gpio)
    (interrupt : pending = .riseIntrPend ∨ pending = .fallIntrPend) :
    (gpio.fire enabled pending pin).line other = gpio.line other := by
  have stored : ∀ word, (gpio.set pending word).line other =
      gpio.line other := by
    intro word
    rw [line_set]
    rcases interrupt with rfl | rfl <;> rfl
  unfold fire
  split
  · split
    · rfl
    · exact stored _
  · rfl

/-- The bit of a pin is set or cleared, and those of the others are not. -/
theorem line_set_or_twoPow (gpio : Gpio) (pin other : Pin) :
    (gpio.set .pinValue (gpio.regs .pinValue ||| BitVec.twoPow 32 pin)).line
        other =
      if other = pin then { gpio.line other with value := true }
      else gpio.line other := by
  rw [line_set]
  by_cases same : other = pin
  · simp [same]
  · have bits : other.val ≠ pin.val := fun equal => same (Fin.ext equal)
    simp [same, bits, line]

theorem line_set_and_twoPow (gpio : Gpio) (pin other : Pin) :
    (gpio.set .pinValue
        (gpio.regs .pinValue &&& ~~~ BitVec.twoPow 32 pin)).line other =
      if other = pin then { gpio.line other with value := false }
      else gpio.line other := by
  rw [line_set]
  by_cases same : other = pin
  · simp [same]
  · have bits : other.val ≠ pin.val := fun equal => same (Fin.ext equal)
    simp [same, bits, line]

/-- The state of an input that the update goes by. -/
def settled (pin : Pin) (snapshot : Fin 64 → Pinstate) (gpio : Gpio) :
    Fin 64 → Pinstate :=
  if snapshot pin.number = .unset then
    Function.update snapshot pin.number
      (level ((gpio.regs .pullupEn).getLsbD pin))
  else snapshot

theorem settled_self (pin : Pin) (snapshot : Fin 64 → Pinstate) (gpio : Gpio) :
    settled pin snapshot gpio pin.number =
      if snapshot pin.number = .unset then
        level ((gpio.regs .pullupEn).getLsbD pin)
      else snapshot pin.number := by
  unfold settled
  split
  · exact Function.update_self _ _ _
  · rfl

theorem settled_of_ne {pin other : Pin} (different : other ≠ pin)
    (snapshot : Fin 64 → Pinstate) (gpio : Gpio) :
    settled pin snapshot gpio other.number = snapshot other.number := by
  unfold settled
  split
  · exact Function.update_of_ne (number_injective different) _ _
  · rfl

/-- A round, on the line of its pin. -/
theorem syncPin_eq (pin : Pin) (snapshot : Fin 64 → Pinstate) (gpio : Gpio) :
    syncPin pin (snapshot, gpio) =
      if (gpio.line pin).input then
        if !(gpio.line pin).value &&
            settled pin snapshot gpio pin.number = .high then
          (settled pin snapshot gpio,
            (gpio.fire .riseIntrEn .riseIntrPend pin).set .pinValue
              ((gpio.fire .riseIntrEn .riseIntrPend pin).regs .pinValue |||
                BitVec.twoPow 32 pin))
        else if (gpio.line pin).value &&
            settled pin snapshot gpio pin.number = .low then
          (settled pin snapshot gpio,
            (gpio.fire .fallIntrEn .fallIntrPend pin).set .pinValue
              ((gpio.fire .fallIntrEn .fallIntrPend pin).regs .pinValue &&&
                ~~~ BitVec.twoPow 32 pin))
        else (settled pin snapshot gpio, gpio)
      else (snapshot, gpio) :=
  rfl

/-- What a round does, apart from interrupts. -/
theorem snapshotLine_syncPin (pin other : Pin) (snapshot : Fin 64 → Pinstate)
    (gpio : Gpio) :
    snapshotLine other (syncPin pin (snapshot, gpio)) =
      if (gpio.line pin).input then
        let state := settled pin snapshot gpio
        let high := (gpio.line pin).value
        let settledLine := { gpio.line other with state := state other.number }
        if !high && state pin.number = .high then
          if other = pin then { settledLine with value := true }
          else settledLine
        else if high && state pin.number = .low then
          if other = pin then { settledLine with value := false }
          else settledLine
        else settledLine
      else { gpio.line other with state := snapshot other.number } := by
  have rise := line_fire .riseIntrEn .riseIntrPend pin other gpio (.inl rfl)
  have fall := line_fire .fallIntrEn .fallIntrPend pin other gpio (.inr rfl)
  rw [syncPin_eq]
  dsimp only
  split
  · split
    · rw [snapshotLine, line_set_or_twoPow, rise]
      split <;> rfl
    · split
      · rw [snapshotLine, line_set_and_twoPow, fall]
        split <;> rfl
      · rfl
  · rfl

theorem snapshotLine_syncPin_self (pin : Pin)
    (state : (Fin 64 → Pinstate) × Gpio) :
    snapshotLine pin (syncPin pin state) = (snapshotLine pin state).sync := by
  rw [snapshotLine_syncPin pin pin state.1 state.2]
  unfold Line.sync
  simp only [settled_self, if_true]
  rfl

theorem snapshotLine_syncPin_of_ne {pin other : Pin} (different : other ≠ pin)
    (state : (Fin 64 → Pinstate) × Gpio) :
    snapshotLine other (syncPin pin state) = snapshotLine other state := by
  rw [snapshotLine_syncPin pin other state.1 state.2]
  simp only [settled_of_ne different, different, if_false, ite_self]
  rfl

theorem line_synchronousChange (gpio : Gpio) (pin : Pin) :
    gpio.synchronousChange.line pin = (gpio.line pin).sync :=
  Lanes.view_foldl_finRange (fun _ => Line.sync)
    snapshotLine_syncPin_self
    (fun _ _ state different => snapshotLine_syncPin_of_ne different state)
    pin (gpio.pins, gpio)

end Gpio

/-! ## Consistency -/

namespace Line

/-- An enabled output without an I/O function. -/
def Driven (line : Line) : Prop :=
  line.output = true ∧ line.iof = false

/-- Neither an input nor an output. -/
def Idle (line : Line) : Prop :=
  line.input = false ∧ line.output = false

/-- What the value and the server say about a pin. -/
structure Consistent (line : Line) : Prop where
  driven : line.Driven →
    line.value = line.port ∧ line.state = Gpio.level line.port
  idle : line.Idle → line.value = true → line.pullup = true

/-- A write that a line stays consistent under.  `nv` is the bit that the
callback sees, if its cases have the address, and `bit` the one that is
written. -/
def Admits (register : Register) (nv : Option Bool) (bit : Bool)
    (line : Line) : Prop :=
  match register with
  | .pinValue => nv = none →
      (line.Driven → bit = line.port) ∧
        (line.Idle → bit = true → line.pullup = true)
  | .inputEn => bit = false → line.output = false → line.value = true →
      line.pullup = true
  | .outputEn =>
      match nv with
      | none =>
          (bit = true → line.output = false → line.iof = false →
            line.value = line.port ∧ line.state = Gpio.level line.port) ∧
          (bit = false → line.input = false → line.value = true →
            line.pullup = true)
      | some nv =>
          (bit = true → line.iof = false → nv = true ∧
            (line.output = true ∨ (line.value = true → line.port = true))) ∧
          (bit = false → nv = true → line.input = false →
            line.value || line.port → line.pullup = true)
  | .port => line.Driven → bit = nv.getD line.port
  | .pullupEn =>
      (line.Driven → nv = some true → line.pullup = false →
        line.port = true) ∧
      (line.Idle → line.value = true ∨ nv = some true ∧ line.pullup = false →
        bit = true)
  | .iofEn => line.output = true → line.iof = true → bit = false →
      line.value = line.port ∧ line.state = Gpio.level line.port
  | _ => True

theorem consistent_iff {line : Line} : line.Consistent ↔
    (line.output = true → line.iof = false →
      line.value = line.port ∧ line.state = Gpio.level line.port) ∧
    (line.input = false → line.output = false → line.value = true →
      line.pullup = true) :=
  ⟨fun consistent => ⟨fun output iof => consistent.driven ⟨output, iof⟩,
      fun input output => consistent.idle ⟨input, output⟩⟩,
    fun both => ⟨fun driven => both.1 driven.1 driven.2,
      fun idle => both.2 idle.1 idle.2⟩⟩

variable {line : Line} {bit nv : Bool}

theorem consistent_store_iff (consistent : line.Consistent)
    (register : Register) :
    (line.store register bit).Consistent ↔ line.Admits register none bit := by
  rw [consistent_iff] at consistent ⊢
  cases register <;> grind [store, Admits, Driven, Idle]

theorem consistent_onPort_iff (consistent : line.Consistent) :
    ((line.onPort nv).store .port bit).Consistent ↔
      line.Admits .port (some nv) bit := by
  rw [consistent_iff] at consistent ⊢
  grind [store, Admits, Driven, Idle, onPort, enabledPort]

theorem consistent_port_iff (consistent : line.Consistent)
    (unchanged : line.enabledPort nv = line.enabledPort line.port) :
    (line.store .port bit).Consistent ↔ line.Admits .port (some nv) bit := by
  rw [consistent_iff] at consistent ⊢
  grind [store, Admits, Driven, Idle, enabledPort]

theorem consistent_onPullup_iff (consistent : line.Consistent) :
    ((line.onPullup nv).store .pullupEn bit).Consistent ↔
      line.Admits .pullupEn (some nv) bit := by
  rw [consistent_iff] at consistent ⊢
  grind [store, Admits, Driven, Idle, onPullup, Gpio.level]

theorem consistent_onOutputEn_iff (consistent : line.Consistent)
    (written : bit = nv ∨ bit = line.output) :
    ((line.onOutputEn nv).store .outputEn bit).Consistent ↔
      line.Admits .outputEn (some nv) bit := by
  rw [consistent_iff] at consistent ⊢
  grind [store, Admits, Driven, Idle, onOutputEn, Gpio.level]

theorem consistent_onIof_iff (consistent : line.Consistent)
    {register : Register} (iof : register = .iofEn ∨ register = .iofSel)
    (pin : Pin) :
    ((line.store register bit).onIof pin).Consistent ↔
      line.Admits register (some nv) bit := by
  rw [consistent_iff] at consistent ⊢
  rcases iof with rfl | rfl <;> grind [store, Admits, Driven, Idle, onIof]

theorem consistent_setBit_iff (consistent : line.Consistent)
    (val : Tristate) : (line.setBit val).Consistent ↔
      (line.Driven → val = (Gpio.level line.port).toTristate ∨
        val = .invalid) := by
  rw [consistent_iff] at consistent ⊢
  cases val <;> grind [setBit, Driven, Gpio.level, Pinstate.toTristate,
    Pinstate.isIof]

theorem Consistent.sync (consistent : line.Consistent) :
    line.sync.Consistent := by
  rw [consistent_iff] at consistent ⊢
  grind [Line.sync, Gpio.level]

end Line

namespace Gpio

/-- What is claimed of every pin. -/
def Consistent (gpio : Gpio) : Prop :=
  ∀ pin, (gpio.line pin).Consistent

/-- The bit that the callback sees: of a write to a later part of a register it
sees none. -/
def Access.seen (access : Access) (pin : Pin) : Option Bool :=
  if access.offset = 0 then some (access.nv.getLsbD pin) else none

/-- The bit that is written. -/
def Access.bit (access : Access) (gpio : Gpio) (pin : Pin) : Bool :=
  (access.merged (gpio.regs access.register)).getLsbD pin

/-- An event that the pins stay consistent under. -/
def Admits (gpio : Gpio) : Event → Prop
  | .write access => ∀ pin, (gpio.line pin).Admits access.register
      (access.seen pin) (access.bit gpio pin)
  | .client changed val => ∀ pin, pin.number = changed →
      (gpio.line pin).Driven →
        val = (level (gpio.line pin).port).toTristate ∨ val = .invalid
  | .synchronous => True

theorem line_perform (gpio : Gpio) (access : Access) (pin : Pin) :
    (gpio.perform access).line pin =
      (gpio.line pin).store access.register (access.bit gpio pin) :=
  line_set pin gpio access.register _

/-- Of a write from the first byte on, a bit is new or has not changed. -/
theorem Access.bit_of_offset (access : Access) (first : access.offset = 0)
    (gpio : Gpio) (pin : Pin) :
    access.bit gpio pin = access.nv.getLsbD pin ∨
      access.bit gpio pin = (gpio.regs access.register).getLsbD pin := by
  have bits : access.bit gpio pin =
      ((gpio.regs access.register).getLsbD pin &&
          !(BitVec.ofNat 32 (2 ^ (8 * access.len) - 1)).getLsbD pin ||
        access.nv.getLsbD pin &&
          (BitVec.ofNat 32 (2 ^ (8 * access.len) - 1)).getLsbD pin) := by
    simp [Access.bit, Access.merged, first]
  rw [bits]
  cases (BitVec.ofNat 32 (2 ^ (8 * access.len) - 1)).getLsbD pin <;> simp

theorem regs_forPins {round : Pin → Gpio → Gpio}
    (kept : ∀ pin gpio, (round pin gpio).regs = gpio.regs) (gpio : Gpio) :
    (forPins round gpio).regs = gpio.regs := by
  unfold forPins
  induction List.finRange 32 generalizing gpio with
  | nil => rfl
  | cons pin pins inductionHypothesis =>
      rw [List.foldl_cons, inductionHypothesis, kept]

/-- Before the write, the cases of the callback assign the value alone. -/
theorem regs_onPort (nv : Word) (gpio : Gpio) {register : Register}
    (other : register ≠ .pinValue) :
    (gpio.onPort nv).regs register = gpio.regs register := by
  unfold onPort
  dsimp only
  split
  · rfl
  · rw [regs_forPins]
    · exact Function.update_of_ne other _ _
    · intro pin gpio
      split <;> rfl

theorem regs_onPullup (nv : Word) (gpio : Gpio) {register : Register}
    (other : register ≠ .pinValue) :
    (gpio.onPullup nv).regs register = gpio.regs register := by
  unfold onPullup
  rw [regs_forPins]
  · exact Function.update_of_ne other _ _
  · intro pin gpio
    split <;> rfl

theorem regs_onOutputEn (nv : Word) (gpio : Gpio) {register : Register}
    (other : register ≠ .pinValue) :
    (gpio.onOutputEn nv).regs register = gpio.regs register := by
  unfold onOutputEn
  rw [regs_forPins]
  · exact Function.update_of_ne other _ _
  · intro pin gpio
    split
    · rfl
    · split <;> rfl

theorem Access.bit_of_regs {access : Access} {gpio other : Gpio}
    (same : other.regs access.register = gpio.regs access.register)
    (pin : Pin) : access.bit other pin = access.bit gpio pin := by
  rw [Access.bit, same, Access.bit]

/-- A write after a case of the callback, pin by pin. -/
theorem consistent_perform_iff {gpio between : Gpio} {access : Access}
    (same : between.regs access.register = gpio.regs access.register)
    (each : ∀ pin, ((between.line pin).store access.register
        (access.bit gpio pin)).Consistent ↔
      (gpio.line pin).Admits access.register (access.seen pin)
        (access.bit gpio pin)) :
    (between.perform access).Consistent ↔ gpio.Admits (.write access) := by
  refine forall_congr' fun pin => ?_
  rw [line_perform, Access.bit_of_regs same]
  exact each pin

theorem consistent_write_iff {gpio : Gpio} (consistent : gpio.Consistent)
    (access : Access) :
    (gpio.registerAccessCallback access).Consistent ↔
      gpio.Admits (.write access) := by
  by_cases first : access.offset = 0
  · have seen : ∀ pin, access.seen pin = some (access.nv.getLsbD pin) :=
      fun _ => if_pos first
    have plain : (gpio.perform access).Consistent ↔ ∀ pin,
        (gpio.line pin).Admits access.register none (access.bit gpio pin) := by
      refine forall_congr' fun pin => ?_
      rw [line_perform]
      exact Line.consistent_store_iff (consistent pin) access.register
    cases register : access.register with
    | pinValue =>
        simp only [registerAccessCallback, first, register, if_true, Admits,
          seen]
        exact iff_of_true consistent fun pin => nofun
    | port =>
        simp only [registerAccessCallback, first, register, if_true]
        apply consistent_perform_iff
        · exact regs_onPort access.nv gpio (by rw [register]; decide)
        · intro pin
          rw [seen, register]
          rcases line_onPort access.nv gpio with changed | unchanged
          · rw [changed pin]
            exact Line.consistent_onPort_iff (consistent pin)
          · rw [(unchanged pin).1]
            exact Line.consistent_port_iff (consistent pin) (unchanged pin).2
    | pullupEn =>
        simp only [registerAccessCallback, first, register, if_true]
        apply consistent_perform_iff
        · exact regs_onPullup access.nv gpio (by rw [register]; decide)
        · intro pin
          rw [seen, register, line_onPullup]
          exact Line.consistent_onPullup_iff (consistent pin)
    | outputEn =>
        simp only [registerAccessCallback, first, register, if_true]
        apply consistent_perform_iff
        · exact regs_onOutputEn access.nv gpio (by rw [register]; decide)
        · intro pin
          have written := access.bit_of_offset first gpio pin
          rw [register] at written
          rw [seen, register, line_onOutputEn]
          exact Line.consistent_onOutputEn_iff (consistent pin) written
    | iofEn | iofSel =>
        simp only [registerAccessCallback, first, register, if_true]
        refine forall_congr' fun pin => ?_
        rw [line_onIof, line_perform, seen, register]
        apply Line.consistent_onIof_iff (consistent pin)
        simp
    | _ =>
        simp only [registerAccessCallback, first, register, if_true, Admits,
          plain, Line.Admits]
  · have seen : ∀ pin, access.seen pin = none := fun _ => if_neg first
    simp only [registerAccessCallback, first, if_false]
    apply consistent_perform_iff rfl
    intro pin
    rw [seen]
    exact Line.consistent_store_iff (consistent pin) access.register

/-- An event keeps the pins consistent exactly if they admit it. -/
theorem consistent_step_iff {gpio : Gpio} (consistent : gpio.Consistent)
    (event : Event) :
    (gpio.step event).Consistent ↔ gpio.Admits event := by
  cases event with
  | write access => exact consistent_write_iff consistent access
  | client changed val =>
      refine forall_congr' fun pin => ?_
      by_cases here : pin.number = changed
      · subst here
        simp only [step, line_setBit_self, true_imp_iff]
        exact Line.consistent_setBit_iff (consistent pin) val
      · simp only [step, line_setBit_of_ne gpio here, here, false_imp_iff,
          iff_true]
        exact consistent pin
  | synchronous =>
      refine iff_of_true (fun pin => ?_) trivial
      rw [step, line_synchronousChange]
      exact (consistent pin).sync

theorem consistent_boot : Gpio.boot.Consistent := by
  intro pin
  have off : Gpio.boot.line pin = ⟨false, false, false, false, false, false,
      false, .unset⟩ := by
    simp [line, boot]
  rw [off]
  exact ⟨fun driven => absurd driven.1 (by decide), fun _ => nofun⟩

def Steps (gpio : Gpio) (event : Event) (later : Gpio) : Prop :=
  later = gpio.step event

/-- Along any run, the pins are consistent in every state exactly if they admit
every event. -/
theorem consistent_iff_admits (events : List Event) :
    EveryState Steps Consistent events .boot ↔
      EveryStep Steps Admits events .boot := by
  have kept : ∀ gpio event later, True → Steps gpio event later → True :=
    fun _ _ _ _ _ => trivial
  refine everyState_iff_everyStep kept ?_ trivial consistent_boot
  intro gpio event later _ consistent stepped
  rw [stepped]
  exact consistent_step_iff consistent event

/-- Pin 3 is an output, and is pulled up. -/
def pullUpOutput : List Event :=
  [.write (.whole .outputEn 8), .write (.whole .pullupEn 8)]

/-- Its value is 1 and its port 0. -/
theorem not_consistent :
    ¬ ∀ events, EveryState Steps Consistent events .boot := by
  intro every
  obtain ⟨_, enabled⟩ := every pullUpOutput
  obtain ⟨_, pulled⟩ := enabled _ rfl
  have driven := ((pulled _ rfl).first 3).driven
  have output := driven ⟨by decide +kernel, by decide +kernel⟩
  exact absurd output.1 (by decide +kernel)

end Gpio

end Hifive

end RiscvVp
