import RiscvVp.Bits.Bytes
import RiscvVp.Sm3.Software

/-!
# The SM3 accelerator

`platform/tiny32/SM3.cpp`, `SM3_Socket.cpp` and `SM3_top.cpp`, in the
period-accurate build.

`SM3_hash` runs at every clock edge.  It reads the signals as they are, keeps
its state in plain variables, and writes two signals that only the socket
reads, so an edge is one call.  `SM3_write` sets a register of the socket,
waits for some edges and only then passes all the registers on.
-/

namespace RiscvVp

namespace Sm3

open Bits

/-! ## The core's arithmetic

`sc_uint<32>` computes with 64 bits and keeps the lower 32 of a result; the
operations below have the same lower 32 bits when they are done on 32.
-/

/-- `IV` of `SM3.cpp` -/
def iv : Chain where
  a := 0x7380166F
  b := 0x4914B2B9
  c := 0x172442D7
  d := 0xDA8A0600
  e := 0xA96F30BC
  f := 0x163138AA
  g := 0xE38DEE4D
  h := 0xB0FB0E4E

/-- What `T_init` of `SM3.cpp` leaves in `T`. -/
def tInit (j : ℕ) : Word :=
  if j < 16 then 0x79CC4519 else if j < 64 then 0x7A879D8A else 0

/-- `shift_SM3`; a shift by 32 leaves no bit. -/
def shift (data : Word) (length : ℕ) : Word :=
  (data <<< length) ^^^ (data >>> (32 - length))

/-- `FF` of `SM3.cpp` -/
def ff (x y z : Word) (j : ℕ) : Word :=
  if j ≤ 15 then x ^^^ y ^^^ z
  else if 16 ≤ j ∧ j ≤ 63 then (x &&& y) ||| (x &&& z) ||| (y &&& z)
  else 0

/-- `GG` of `SM3.cpp` -/
def gg (x y z : Word) (j : ℕ) : Word :=
  if j ≤ 15 then x ^^^ y ^^^ z
  else if 16 ≤ j ∧ j ≤ 63 then (x &&& y) ||| (~~~x &&& z)
  else 0

def p0 (x : Word) : Word :=
  x ^^^ shift x 9 ^^^ shift x 17

def p1 (x : Word) : Word :=
  x ^^^ shift x 15 ^^^ shift x 23

/-! ## Variables and signals -/

/-- The variables of `SM3.cpp`. -/
structure Core : Type where
  opt : Bool
  v : Chain
  vBuf : Chain
  t : ℕ → Word
  w68 : ℕ → Word
  w64 : ℕ → Word
  cfCount : ℕ
  w68Count : ℕ
  w64Count : ℕ
  vReadyOutCount : Word

/-- The registers and outputs of `SM3_Socket`. -/
structure Socket : Type where
  sm3RstInReg : Word
  sm3OptInReg : Word
  xInReg : ℕ → Word
  xIn : BitVec 512
  sm3RstOut : Word
  sm3OptOut : Word
  messageOut : BitVec 512
  /-- `SM3_write` is in its `wait`. -/
  writing : Bool

structure Accelerator : Type where
  rst : Bool
  socket : Socket
  core : Core
  vReadyOut : Word
  vOut : BitVec 256

/-! ## The core -/

/-- The branch of the reset. -/
def Core.reset : Core where
  opt := false
  v := iv
  vBuf := iv
  t := tInit
  w68 := fun _ => 0
  w64 := fun _ => 0
  cfCount := 0
  w68Count := 16
  w64Count := 0
  vReadyOutCount := 0

/-- The first sixteen words, set at every edge. -/
def Core.load (core : Core) (message : BitVec 512) : Core :=
  { core with
    w68 := fun j =>
      if j < 16 then message.extractLsb' (480 - j * 32) 32 else core.w68 j }

/-- One word of each expansion. -/
def Core.messageExt (core : Core) : Core :=
  let core :=
    if 16 ≤ core.w68Count ∧ core.w68Count ≤ 67 then
      let j := core.w68Count
      let word :=
        p1 (core.w68 (j - 16) ^^^ core.w68 (j - 9) ^^^ shift (core.w68 (j - 3)) 15) ^^^
          shift (core.w68 (j - 13)) 7 ^^^ core.w68 (j - 6)
      { core with w68 := Function.update core.w68 j word, w68Count := j + 1 }
    else core
  if core.w64Count ≤ 63 then
    let j := core.w64Count
    { core with
      w64 := Function.update core.w64 j (core.w68 j ^^^ core.w68 (j + 4))
      w64Count := j + 1 }
  else core

/-- A round of the compression. -/
def Core.cf (core : Core) : Core :=
  let j := core.cfCount
  let vBuf := core.vBuf
  let ss1 := shift (shift vBuf.a 12 + vBuf.e + shift (core.t j) (j % 32)) 7
  let ss2 := ss1 ^^^ shift vBuf.a 12
  let tt1 := ff vBuf.a vBuf.b vBuf.c j + vBuf.d + ss2 + core.w64 j
  let tt2 := gg vBuf.e vBuf.f vBuf.g j + vBuf.h + ss1 + core.w68 j
  { core with
    vBuf := {
      d := vBuf.c
      c := shift vBuf.b 9
      b := vBuf.a
      a := tt1
      h := vBuf.g
      g := shift vBuf.f 19
      f := vBuf.e
      e := p0 tt2 }
    cfCount := j + 1 }

/-- The end of a block. -/
def Core.finish (core : Core) : Core :=
  let v := core.vBuf.xor core.v
  { core with
    v := v
    vBuf := v
    vReadyOutCount := core.vReadyOutCount + 1
    cfCount := 0
    w64Count := 0
    w68Count := 16
    opt := false }

/-- `SM3_hash` -/
def sm3Hash (accelerator : Accelerator) : Accelerator :=
  let socket := accelerator.socket
  let core :=
    if socket.sm3OptOut = 1 then { accelerator.core with opt := true }
    else accelerator.core
  if accelerator.rst = false ∨ socket.sm3RstOut = 1 then
    { accelerator with core := Core.reset, vReadyOut := 0 }
  else if core.opt = true ∧ socket.sm3OptOut = 0 then
    let core := (core.load socket.messageOut).messageExt
    if core.cfCount ≤ 63 then { accelerator with core := core.cf }
    else
      let core := core.finish
      { accelerator with
        core := core
        vOut := concat core.v.get 8
        vReadyOut := core.vReadyOutCount }
  else { accelerator with core := core }

/-! ## The socket -/

/-- The register that `SM3_write` sets, if the address names one. -/
def Socket.setRegister (socket : Socket) (addr : ℕ) (data : Word) :
    Option Socket :=
  if addr = 0x60 then some { socket with sm3RstInReg := data }
  else if addr = 0x64 then some { socket with sm3OptInReg := data }
  else if addr % 4 = 0 ∧ addr < 0x40 then
    some { socket with xInReg := Function.update socket.xInReg (addr / 4) data }
  else none

/-- `SM3_write` up to its `wait`. -/
def Socket.begin (socket : Socket) (addr : ℕ) (data : Word) : Socket :=
  match socket.setRegister addr data with
  | some socket => { socket with writing := true }
  | none => socket

/-- `SM3_write` after its `wait`: the message output gets what `x_in` was. -/
def Socket.finish (socket : Socket) : Socket :=
  { socket with
    xIn := concat socket.xInReg 16
    sm3RstOut := socket.sm3RstInReg
    sm3OptOut := socket.sm3OptInReg
    messageOut := socket.xIn
    writing := false }

/-- `y_out_reg` in `SM3_read`. -/
def Accelerator.outputs (accelerator : Accelerator) : Chain where
  a := accelerator.vOut.extractLsb' 224 32
  b := accelerator.vOut.extractLsb' 192 32
  c := accelerator.vOut.extractLsb' 160 32
  d := accelerator.vOut.extractLsb' 128 32
  e := accelerator.vOut.extractLsb' 96 32
  f := accelerator.vOut.extractLsb' 64 32
  g := accelerator.vOut.extractLsb' 32 32
  h := accelerator.vOut.extractLsb' 0 32

/-- `SM3_read`; other addresses leave the buffer alone. -/
def Accelerator.read (accelerator : Accelerator) (addr : ℕ) : Option Word :=
  let y := accelerator.outputs
  match addr with
  | 0x68 => some accelerator.vReadyOut
  | 0x40 => some y.a
  | 0x44 => some y.b
  | 0x48 => some y.c
  | 0x4c => some y.d
  | 0x50 => some y.e
  | 0x54 => some y.f
  | 0x58 => some y.g
  | 0x5c => some y.h
  | _ => none

/-! ## Events -/

inductive Event : Type
  /-- `rst_signal` rises. -/
  | release
  | edge
  /-- A write begins; the next one begins when this one has finished. -/
  | begin (addr : ℕ) (data : Word)
  | finish
  deriving DecidableEq, Repr

/-- What an event does; an event that cannot happen does nothing. -/
def step (accelerator : Accelerator) : Event → Accelerator
  | .release => { accelerator with rst := true }
  | .edge => sm3Hash accelerator
  | .begin addr data =>
      if accelerator.socket.writing then accelerator
      else { accelerator with socket := accelerator.socket.begin addr data }
  | .finish =>
      if accelerator.socket.writing then
        { accelerator with socket := accelerator.socket.finish }
      else accelerator

/-- After the initialization phase, with `rst_signal` still low. -/
def Accelerator.initial : Accelerator where
  rst := false
  socket := ⟨0, 0, fun _ => 0, 0, 0, 0, 0, false⟩
  core := Core.reset
  vReadyOut := 0
  vOut := 0

end Sm3

end RiscvVp
