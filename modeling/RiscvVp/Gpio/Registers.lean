import Mathlib

/-!
# General-purpose I/O

`gpio.cpp`: the registers of the GPIO module, the state that its server shows
to clients, and what register accesses, client requests and the synchronous
update do to them.  The server pushes changes of pins to the channels, and
interrupts go to the PLIC; both are logged.
-/

namespace RiscvVp

namespace Hifive

abbrev Word : Type := BitVec 32

/-- `available_pins` of them -/
abbrev Pin : Type := Fin 32

/-- `Pinstate` -/
inductive Pinstate : Type
  | unset
  | low
  | high
  | iofSpi
  | iofI2c
  | iofPwm
  | iofUart
  deriving DecidableEq, Repr

/-- `Tristate`, and the fourth value of the two bits of a request. -/
inductive Tristate : Type
  | unset
  | low
  | high
  | invalid
  deriving DecidableEq, Repr

/-- `isIOF` -/
def Pinstate.isIof : Pinstate → Bool
  | .unset | .low | .high => false
  | .iofSpi | .iofI2c | .iofPwm | .iofUart => true

/-- `toTristate`, meant for states that are not I/O functions. -/
def Pinstate.toTristate : Pinstate → Tristate
  | .unset => .unset
  | .low => .low
  | .high => .high
  | _ => .invalid

inductive Register : Type
  | pinValue
  | inputEn
  | outputEn
  | port
  | pullupEn
  | pinDriveStrength
  | riseIntrEn
  | riseIntrPend
  | fallIntrEn
  | fallIntrPend
  | highIntrEn
  | highIntrPend
  | lowIntrEn
  | lowIntrPend
  | iofEn
  | iofSel
  | outXor
  deriving DecidableEq, Repr

structure Gpio where
  regs : Register → Word
  /-- `server.state.pins` -/
  pins : Fin 64 → Pinstate
  /-- what `pushPin` has been called with, the latest first -/
  pushed : List (Pin × Tristate)
  /-- the pins whose interrupts have been triggered, the latest first -/
  triggered : List Pin

/-- After the constructor. -/
def Gpio.boot : Gpio where
  regs
    | .riseIntrPend | .fallIntrPend | .highIntrPend | .lowIntrPend =>
        BitVec.allOnes 32
    | _ => 0
  pins _ := .unset
  pushed := []
  triggered := []

/-- The server's number of a pin. -/
def Pin.number (pin : Pin) : Fin 64 :=
  pin.castLE (by decide)

/-- `getIOF` -/
def getIof (pin : Pin) (iofsel : Bool) : Pinstate :=
  match pin.val with
  | 16 | 17 => if !iofsel then .iofUart else .unset
  | 19 | 20 | 21 | 22 => if !iofsel then .unset else .iofPwm
  | 0 | 1 => if !iofsel then .unset else .iofPwm
  | 2 | 3 => if !iofsel then .iofSpi else .iofPwm
  | 4 | 5 => if !iofsel then .iofSpi else .unset
  | 9 => if !iofsel then .iofSpi else .unset
  | 10 => if !iofsel then .iofSpi else .iofPwm
  | 11 | 12 | 13 => if !iofsel then .unset else .iofPwm
  | _ => .unset

namespace Gpio

def set (gpio : Gpio) (register : Register) (word : Word) : Gpio :=
  { gpio with regs := Function.update gpio.regs register word }

def setPin (gpio : Gpio) (pin : Fin 64) (state : Pinstate) : Gpio :=
  { gpio with pins := Function.update gpio.pins pin state }

def pushPin (gpio : Gpio) (pin : Pin) (state : Tristate) : Gpio :=
  { gpio with pushed := (pin, state) :: gpio.pushed }

/-- `for (PinNumber i = 0; i < available_pins; i++)` -/
def forPins {σ : Type} (round : Pin → σ → σ) (state : σ) : σ :=
  (List.finRange 32).foldl (fun state pin => round pin state) state

/-- A pin's level, in the state of the server. -/
def level (high : Bool) : Pinstate :=
  if high then .high else .low

/-- Set a pin's level and push it. -/
def drive (pin : Pin) (high : Bool) (gpio : Gpio) : Gpio :=
  (gpio.setPin pin.number (level high)).pushPin pin (level high).toTristate

/-! ## Register accesses -/

/-- `PORT_REG_ADDR`, before the write of the new value. -/
def onPort (nv : Word) (gpio : Gpio) : Gpio :=
  let prvOutputEnabledPort :=
    (gpio.regs .port &&& gpio.regs .outputEn) &&& ~~~ gpio.regs .iofEn
  let newOutputEnabledPort :=
    (nv &&& gpio.regs .outputEn) &&& ~~~ gpio.regs .iofEn
  let changedOutputPins := newOutputEnabledPort ^^^ prvOutputEnabledPort
  if changedOutputPins = 0 then gpio
  else
    let written := gpio.set .pinValue
      ((gpio.regs .pinValue &&& ~~~ gpio.regs .outputEn) |||
        newOutputEnabledPort)
    forPins (fun pin gpio =>
      if changedOutputPins.getLsbD pin then
        gpio.drive pin (newOutputEnabledPort.getLsbD pin)
      else gpio) written

/-- `PULLUP_EN_ADDR` -/
def onPullup (nv : Word) (gpio : Gpio) : Gpio :=
  let newlyPulledUpBits := (nv ^^^ gpio.regs .pullupEn) &&& nv
  let written := gpio.set .pinValue (gpio.regs .pinValue ||| newlyPulledUpBits)
  forPins (fun pin gpio =>
    if newlyPulledUpBits.getLsbD pin then gpio.setPin pin.number .high
    else gpio) written

/-- `OUTPUT_EN_REG_ADDR` -/
def onOutputEn (nv : Word) (gpio : Gpio) : Gpio :=
  let oldOutputEn := gpio.regs .outputEn
  let newlyOutputDisabledBits := oldOutputEn &&& ~~~ nv
  let newlyOutputEnabledBits := ~~~ oldOutputEn &&& nv
  let value := (gpio.regs .pinValue &&& ~~~ oldOutputEn) |||
    (gpio.regs .port &&& nv)
  forPins (fun pin gpio =>
    if newlyOutputDisabledBits.getLsbD pin then
      (gpio.setPin pin.number .unset).pushPin pin .unset
    else if newlyOutputEnabledBits.getLsbD pin then
      gpio.drive pin (value.getLsbD pin)
    else gpio) (gpio.set .pinValue value)

/-- `IOF_EN_REG_ADDR` and `IOF_SEL_REG_ADDR`, after the write; a pin without the
function keeps its state. -/
def onIof (gpio : Gpio) : Gpio :=
  forPins (fun pin gpio =>
    if (gpio.regs .iofEn).getLsbD pin then
      let iof := getIof pin ((gpio.regs .iofSel).getLsbD pin)
      if iof = .unset then gpio else gpio.setPin pin.number iof
    else gpio) gpio

/-- A write to a register, or to a part of it.  `nv` is what the data pointer
points to; the transaction has the first `len` bytes of it. -/
structure Access where
  register : Register
  offset : ℕ
  len : ℕ
  inside : offset + len ≤ 4
  nv : Word

/-- A whole register is written. -/
def Access.whole (register : Register) (nv : Word) : Access :=
  ⟨register, 0, 4, le_rfl, nv⟩

/-- The value that `fn` assigns. -/
def Access.merged (access : Access) (old : Word) : Word :=
  let mask := (BitVec.ofNat 32 (2 ^ (8 * access.len) - 1)) <<<
    (8 * access.offset)
  (old &&& ~~~ mask) ||| ((access.nv <<< (8 * access.offset)) &&& mask)

/-- `r.fn()` -/
def perform (gpio : Gpio) (access : Access) : Gpio :=
  gpio.set access.register (access.merged (gpio.regs access.register))

/-- `register_access_callback` on a write.  Its cases are the addresses of the
registers; a write to a later part of one meets none of them. -/
def registerAccessCallback (gpio : Gpio) (access : Access) : Gpio :=
  if access.offset = 0 then
    match access.register with
    | .pinValue => gpio
    | .port => (gpio.onPort access.nv).perform access
    | .pullupEn => (gpio.onPullup access.nv).perform access
    | .outputEn => (gpio.onOutputEn access.nv).perform access
    | .iofEn | .iofSel => (gpio.perform access).onIof
    | _ => gpio.perform access
  else gpio.perform access

/-! ## Clients -/

/-- `asyncOnchange`; a change is notified to `synchronousChange`. -/
def asyncOnchange (gpio : Gpio) (bit : Fin 64) (val : Tristate) : Gpio :=
  match val with
  | .unset => gpio.setPin bit .unset
  | .low => gpio.setPin bit .low
  | .high => gpio.setPin bit .high
  | .invalid => gpio

/-- `handleConnection` on `SET_BIT` -/
def setBit (gpio : Gpio) (pin : Fin 64) (val : Tristate) : Gpio :=
  if (gpio.pins pin).isIof then gpio else gpio.asyncOnchange pin val

/-! ## The synchronous update -/

/-- Fire an interrupt that is enabled and not pending.  Pending is inverted. -/
def fire (enabled pending : Register) (pin : Pin) (gpio : Gpio) : Gpio :=
  if (gpio.regs enabled).getLsbD pin then
    if (~~~ gpio.regs pending).getLsbD pin then gpio
    else
      let fired := gpio.set pending
        (gpio.regs pending &&& ~~~ BitVec.twoPow 32 pin)
      { fired with triggered := pin :: fired.triggered }
  else gpio

/-- A round of `synchronousChange`, on the snapshot and the module. -/
def syncPin (pin : Pin) (state : (Fin 64 → Pinstate) × Gpio) :
    (Fin 64 → Pinstate) × Gpio :=
  let (snapshot, gpio) := state
  if (gpio.regs .inputEn).getLsbD pin then
    let snapshot :=
      if snapshot pin.number = .unset then
        Function.update snapshot pin.number
          (level ((gpio.regs .pullupEn).getLsbD pin))
      else snapshot
    let high := (gpio.regs .pinValue).getLsbD pin
    if !high && snapshot pin.number = .high then
      let fired := gpio.fire .riseIntrEn .riseIntrPend pin
      (snapshot, fired.set .pinValue
        (fired.regs .pinValue ||| BitVec.twoPow 32 pin))
    else if high && snapshot pin.number = .low then
      let fired := gpio.fire .fallIntrEn .fallIntrPend pin
      (snapshot, fired.set .pinValue
        (fired.regs .pinValue &&& ~~~ BitVec.twoPow 32 pin))
    else (snapshot, gpio)
  else state

/-- `synchronousChange`.  What clients change between the snapshot and its write
is lost. -/
def synchronousChange (gpio : Gpio) : Gpio :=
  let (snapshot, changed) := forPins syncPin (gpio.pins, gpio)
  { changed with pins := snapshot }

/-! ## Events -/

inductive Event : Type
  | write (access : Access)
  | client (pin : Fin 64) (val : Tristate)
  | synchronous

def step (gpio : Gpio) : Event → Gpio
  | .write access => gpio.registerAccessCallback access
  | .client pin val => gpio.setBit pin val
  | .synchronous => gpio.synchronousChange

end Gpio

end Hifive

end RiscvVp
