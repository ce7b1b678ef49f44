import Mathlib.Data.Nat.Notation
import Mathlib.Logic.Function.Basic

/-!
# The OLED display

`oled.cpp`: bytes come over SPI, and the level of the DC pin says whether a byte
is a command or data.  The frame is an array of pages and columns; the memory
from its first byte on is flat, so that an index out of range reaches a byte as
well.
-/

namespace RiscvVp

namespace Ss1106

abbrev Byte : Type := BitVec 8

def width : ℕ := 132

def height : ℕ := 64

/-- `Operator` -/
inductive Operator : Type
  | colLow
  | colHigh
  | pumpVoltage
  | displayStartLine
  | contrastModeSet
  | segmentRemap
  | entireDisplay
  | normalInverse
  | multiplexRatio
  | dcDcVoltage
  | displayOn
  | pageAddr
  | commonOutputDir
  | displayOffset
  | displayDivideRatio
  | disPreChargePeriod
  | commonPadsStuff
  | vcomDeselect
  | rmw
  | rmwEnd
  | nop
  deriving DecidableEq, Repr

/-- In the order of the enumeration. -/
def operators : List Operator :=
  [.colLow, .colHigh, .pumpVoltage, .displayStartLine, .contrastModeSet,
    .segmentRemap, .entireDisplay, .normalInverse, .multiplexRatio,
    .dcDcVoltage, .displayOn, .pageAddr, .commonOutputDir, .displayOffset,
    .displayDivideRatio, .disPreChargePeriod, .commonPadsStuff, .vcomDeselect,
    .rmw, .rmwEnd, .nop]

def opcode : Operator → Byte
  | .colLow => 0x00
  | .colHigh => 0x10
  | .pumpVoltage => 0b00110000
  | .displayStartLine => 0b01000000
  | .contrastModeSet => 0b10000001
  | .segmentRemap => 0xa0
  | .entireDisplay => 0xa4
  | .normalInverse => 0xa6
  | .multiplexRatio => 0b10101000
  | .dcDcVoltage => 0x8b
  | .displayOn => 0xae
  | .pageAddr => 0xb0
  | .commonOutputDir => 0xc0
  | .displayOffset => 0b11010011
  | .displayDivideRatio => 0b11010101
  | .disPreChargePeriod => 0b11011001
  | .commonPadsStuff => 0b11011010
  | .vcomDeselect => 0b11011011
  | .rmw => 0b11100000
  | .rmwEnd => 0b11101110
  | .nop => 0b11100011

def mask : Operator → Byte
  | .displayStartLine => 0b11000000
  | .colLow | .colHigh | .pageAddr | .commonOutputDir => 0b11110000
  | .pumpVoltage => 0b11111100
  | .segmentRemap | .entireDisplay | .normalInverse | .displayOn => 0b11111110
  | .contrastModeSet | .multiplexRatio | .dcDcVoltage | .displayOffset
  | .displayDivideRatio | .disPreChargePeriod | .commonPadsStuff
  | .vcomDeselect | .rmw | .rmwEnd | .nop => 0b11111111

structure Command where
  op : Operator
  payload : Byte
  deriving DecidableEq, Repr

/-- `match` -/
def matchCommand (cmd : Byte) : Command :=
  match operators.find? fun op => ((cmd ^^^ opcode op) &&& mask op) = 0 with
  | some op => ⟨op, cmd &&& ~~~ mask op⟩
  | none => ⟨.nop, 0⟩

inductive Mode : Type
  | normal
  | secondArg
  deriving DecidableEq, Repr

/-- The fields of `State` that are assigned, and the driver's own. -/
structure Display where
  changed : BitVec 1
  column : Byte
  page : Byte
  pumpVoltage : BitVec 2
  contrast : Byte
  invertColor : BitVec 1
  displayOn : BitVec 1
  /-- the memory from the frame's first byte on -/
  frame : ℕ → Byte
  mode : Mode
  lastCmd : Command
  /-- the indices of the stores to the frame, the latest first -/
  stores : List (Byte × Byte)

/-- After the constructor. -/
def Display.boot : Display where
  changed := 0
  column := 0
  page := 0
  pumpVoltage := 0
  contrast := 0
  invertColor := 0
  displayOn := 0
  frame _ := 0
  mode := .normal
  lastCmd := ⟨.nop, 0⟩
  stores := []

/-- Where `frame[page][column]` is. -/
def address (page column : Byte) : ℕ :=
  page.toNat * width + column.toNat

namespace Display

def store (display : Display) (page column byte : Byte) : Display :=
  { display with
    frame := Function.update display.frame (address page column) byte
    stores := (page, column) :: display.stores }

/-- A data byte, and what `write` returns. -/
def data (byte : Byte) (display : Display) : Byte × Display :=
  if width < display.column.toNat then (-1, display)
  else if height / 8 < display.page.toNat then (-1, display)
  else
    let stored := display.store display.page display.column byte
    (0, { stored with changed := 1, column := stored.column + 1 })

/-- A command byte. -/
def command (byte : Byte) (display : Display) : Byte × Display :=
  match display.mode with
  | .normal =>
      let cmd := matchCommand byte
      let display := { display with lastCmd := cmd }
      match cmd.op with
      | .colLow =>
          (0, { display with
            column := (display.column &&& 0xf0) ||| cmd.payload })
      | .colHigh =>
          (0, { display with
            column := (display.column &&& 0x0f) ||| (cmd.payload <<< 4) })
      | .pumpVoltage =>
          (0, { display with pumpVoltage := cmd.payload.setWidth 2 })
      | .contrastModeSet => (0, { display with mode := .secondArg })
      | .normalInverse =>
          (0, { display with invertColor := cmd.payload.setWidth 1 })
      | .displayOn => (0, { display with displayOn := cmd.payload.setWidth 1 })
      | .pageAddr => (0, { display with page := cmd.payload })
      | _ => (0, display)
  | .secondArg =>
      let display :=
        match display.lastCmd.op with
        | .contrastModeSet => { display with contrast := byte, changed := 1 }
        | _ => display
      (0, { display with mode := .normal })

/-- `write`; `dc` is the level of the DC pin. -/
def write (dc : Bool) (byte : Byte) (display : Display) : Byte × Display :=
  if dc then display.data byte else display.command byte

end Display

end Ss1106

end RiscvVp
