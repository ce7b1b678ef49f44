import RiscvVp.Sm4.Software

/-!
# The SM4 accelerator

`platform/tiny32/SM4.cpp`, `SM4_REG.cpp`, `SM4_Socket.cpp` and `SM4_top.cpp`, in
the period-accurate build.

At a clock edge the processes `control_proc`, `KeyExp` and `EncDec` read the
signals as they are and write what they will be next; the arrays and counters
of the core are plain variables and change at once.  Then delta cycles follow
until nothing changes any more.  `control_proc` and `state_proc` both drive
the enable signals; the model takes it that several writers are allowed.

`SM4_write` sets a register of the socket, waits for some edges and only then
passes the control word and the data on.
-/

namespace RiscvVp

namespace Sm4

open Feistel

/-! ## The core's arithmetic -/

/-- `FK` of `SM4.cpp` -/
def fk : Block Word :=
  ⟨0xa3b1bac6, 0x56aa3350, 0x677d9197, 0xb27022dc⟩

/-- `CK` of `SM4.cpp` -/
def ck : Array Word :=
  #[
    0x00070e15, 0x1c232a31, 0x383f464d, 0x545b6269, 0x70777e85,
    0x8c939aa1, 0xa8afb6bd, 0xc4cbd2d9, 0xe0e7eef5, 0xfc030a11,
    0x181f262d, 0x343b4249, 0x50575e65, 0x6c737a81, 0x888f969d,
    0xa4abb2b9, 0xc0c7ced5, 0xdce3eaf1, 0xf8ff060d, 0x141b2229,
    0x30373e45, 0x4c535a61, 0x686f767d, 0x848b9299, 0xa0a7aeb5,
    0xbcc3cad1, 0xd8dfe6ed, 0xf4fb0209, 0x10171e25, 0x2c333a41,
    0x484f565d, 0x646b7279
  ]

/-- `Sbox` of `SM4.cpp` -/
def sbox : Array (BitVec 8) :=
  #[
    0xd6, 0x90, 0xe9, 0xfe, 0xcc, 0xe1, 0x3d, 0xb7, 0x16, 0xb6, 0x14, 0xc2,
    0x28, 0xfb, 0x2c, 0x05, 0x2b, 0x67, 0x9a, 0x76, 0x2a, 0xbe, 0x04, 0xc3,
    0xaa, 0x44, 0x13, 0x26, 0x49, 0x86, 0x06, 0x99, 0x9c, 0x42, 0x50, 0xf4,
    0x91, 0xef, 0x98, 0x7a, 0x33, 0x54, 0x0b, 0x43, 0xed, 0xcf, 0xac, 0x62,
    0xe4, 0xb3, 0x1c, 0xa9, 0xc9, 0x08, 0xe8, 0x95, 0x80, 0xdf, 0x94, 0xfa,
    0x75, 0x8f, 0x3f, 0xa6, 0x47, 0x07, 0xa7, 0xfc, 0xf3, 0x73, 0x17, 0xba,
    0x83, 0x59, 0x3c, 0x19, 0xe6, 0x85, 0x4f, 0xa8, 0x68, 0x6b, 0x81, 0xb2,
    0x71, 0x64, 0xda, 0x8b, 0xf8, 0xeb, 0x0f, 0x4b, 0x70, 0x56, 0x9d, 0x35,
    0x1e, 0x24, 0x0e, 0x5e, 0x63, 0x58, 0xd1, 0xa2, 0x25, 0x22, 0x7c, 0x3b,
    0x01, 0x21, 0x78, 0x87, 0xd4, 0x00, 0x46, 0x57, 0x9f, 0xd3, 0x27, 0x52,
    0x4c, 0x36, 0x02, 0xe7, 0xa0, 0xc4, 0xc8, 0x9e, 0xea, 0xbf, 0x8a, 0xd2,
    0x40, 0xc7, 0x38, 0xb5, 0xa3, 0xf7, 0xf2, 0xce, 0xf9, 0x61, 0x15, 0xa1,
    0xe0, 0xae, 0x5d, 0xa4, 0x9b, 0x34, 0x1a, 0x55, 0xad, 0x93, 0x32, 0x30,
    0xf5, 0x8c, 0xb1, 0xe3, 0x1d, 0xf6, 0xe2, 0x2e, 0x82, 0x66, 0xca, 0x60,
    0xc0, 0x29, 0x23, 0xab, 0x0d, 0x53, 0x4e, 0x6f, 0xd5, 0xdb, 0x37, 0x45,
    0xde, 0xfd, 0x8e, 0x2f, 0x03, 0xff, 0x6a, 0x72, 0x6d, 0x6c, 0x5b, 0x51,
    0x8d, 0x1b, 0xaf, 0x92, 0xbb, 0xdd, 0xbc, 0x7f, 0x11, 0xd9, 0x5c, 0x41,
    0x1f, 0x10, 0x5a, 0xd8, 0x0a, 0xc1, 0x31, 0x88, 0xa5, 0xcd, 0x7b, 0xbd,
    0x2d, 0x74, 0xd0, 0x12, 0xb8, 0xe5, 0xb4, 0xb0, 0x89, 0x69, 0x97, 0x4a,
    0x0c, 0x96, 0x77, 0x7e, 0x65, 0xb9, 0xf1, 0x09, 0xc5, 0x6e, 0xc6, 0x84,
    0x18, 0xf0, 0x7d, 0xec, 0x3a, 0xdc, 0x4d, 0x20, 0x79, 0xee, 0x5f, 0x3e,
    0xd7, 0xcb, 0x39, 0x48
  ]

def substitute (byte : BitVec 8) : BitVec 8 :=
  sbox.getD byte.toNat 0

def shift (data : Word) (length : ℕ) : Word :=
  (data <<< length) ^^^ (data >>> (32 - length))

def roundF (input : Word) (mode : Bool) : Word :=
  let b : Word :=
    substitute (input.extractLsb' 24 8) ++ substitute (input.extractLsb' 16 8) ++
      substitute (input.extractLsb' 8 8) ++ substitute (input.extractLsb' 0 8)
  if mode then b ^^^ shift b 13 ^^^ shift b 23
  else b ^^^ shift b 2 ^^^ shift b 10 ^^^ shift b 18 ^^^ shift b 24

/-- `(w0, w1, w2, w3)` as one signal. -/
def concat (block : Block Word) : BitVec 128 :=
  block.w0 ++ block.w1 ++ block.w2 ++ block.w3

/-- `range(127,96)` down to `range(31,0)`. -/
def ranges (value : BitVec 128) : Block Word :=
  ⟨value.extractLsb' 96 32, value.extractLsb' 64 32, value.extractLsb' 32 32,
    value.extractLsb' 0 32⟩

/-! ## Arrays

An access outside an array is the end of the run.
-/

def element (array : ℕ → Word) (size index : ℕ) : Option Word :=
  if index < size then some (array index) else none

def store (array : ℕ → Word) (size index : ℕ) (value : Word) :
    Option (ℕ → Word) :=
  if index < size then some (Function.update array index value) else none

/-- The first four elements, set at once. -/
def load (array : ℕ → Word) (block : Block Word) : ℕ → Word :=
  fun index => if index < 4 then block.get index else array index

/-- An index that is a difference of C integers. -/
def difference (value other : ℕ) : Option ℕ :=
  if other ≤ value then some (value - other) else none

/-! ## Signals and variables -/

/-- The signals of `SM4_REG`. -/
structure Signals : Type where
  coreRst : Bool
  keyExpEn : Bool
  encDecEn : Bool
  /-- `true: enc false: dec` -/
  mode : Bool
  key : BitVec 128
  data : BitVec 128
  rkReady : Bool
  encdataReady : Bool
  decdataReady : Bool
  dataState : Word
  dataOut : BitVec 128
  deriving DecidableEq

/-- The variables of `SM4.cpp`. -/
structure Core : Type where
  i : ℕ
  j : ℕ
  rk : ℕ → Word
  x : ℕ → Word

/-- The registers and outputs of `SM4_Socket`. -/
structure Socket : Type where
  controlInReg : Word
  xInReg : Block Word
  xIn : BitVec 128
  dataOptOut : Word
  dataOut : BitVec 128
  /-- `SM4_write` is in its `wait`. -/
  writing : Bool

structure Accelerator : Type where
  rst : Bool
  socket : Socket
  signals : Signals
  core : Core

/-- After the initialization phase, with `rst_signal` still low. -/
def Accelerator.initial : Accelerator where
  rst := false
  socket := ⟨0, ⟨0, 0, 0, 0⟩, 0, 0, 0, false⟩
  signals := ⟨false, false, false, false, 0, 0, false, false, false, 0, 0⟩
  core := ⟨0, 0, fun _ => 0, fun _ => 0⟩

/-! ## The processes

Each reads the signals `now` and writes into `next`.
-/

def controlProc (rst : Bool) (socket : Socket) (next : Signals) : Signals :=
  if !rst then
    { next with
      coreRst := false
      keyExpEn := false
      encDecEn := false
      key := 0
      data := 0 }
  else if socket.dataOptOut = 0 then { next with coreRst := false }
  else if socket.dataOptOut = 1 then
    { next with coreRst := true, key := socket.dataOut, keyExpEn := true }
  else if socket.dataOptOut = 2 then
    { next with data := socket.dataOut, mode := true, encDecEn := true }
  else if socket.dataOptOut = 3 then
    { next with data := socket.dataOut, mode := false, encDecEn := true }
  else next

def stateProc (now next : Signals) : Signals :=
  if !now.coreRst then { next with dataState := 0 }
  else if now.keyExpEn && !now.rkReady then { next with dataState := 1 }
  else if now.keyExpEn && now.rkReady then
    { next with keyExpEn := false, dataState := 2 }
  else if now.encDecEn && now.rkReady && now.mode && !now.encdataReady then
    { next with dataState := 3 }
  else if now.encDecEn && now.rkReady && now.mode && now.encdataReady then
    { next with encDecEn := false, dataState := 4 }
  else if now.encDecEn && now.rkReady && !now.mode && now.encdataReady &&
      !now.decdataReady then
    { next with dataState := 5 }
  else if now.encDecEn && now.rkReady && !now.mode && now.encdataReady &&
      now.decdataReady then
    { next with encDecEn := false, dataState := 6 }
  else next

/-- One round: the element four places further, from four elements and a
constant or a round key. -/
def extendArray (array : ℕ → Word) (index : ℕ) (constant : Word)
    (mode : Bool) : Option (ℕ → Word) := do
  let first ← element array 36 index
  let second ← element array 36 (index + 1)
  let third ← element array 36 (index + 2)
  let fourth ← element array 36 (index + 3)
  store array 36 (index + 4)
    (first ^^^ roundF (second ^^^ third ^^^ fourth ^^^ constant) mode)

/-- `rk[0]` to `rk[3]`. -/
def initialKeys (key : BitVec 128) : Block Word :=
  let words := ranges key
  ⟨words.w0 ^^^ fk.w0, words.w1 ^^^ fk.w1, words.w2 ^^^ fk.w2,
    words.w3 ^^^ fk.w3⟩

def keyExp (now next : Signals) (core : Core) : Option (Signals × Core) :=
  if !now.coreRst then
    some ({ next with rkReady := false }, { core with i := 0 })
  else if now.keyExpEn then do
    let rk := load core.rk (initialKeys now.key)
    let constant ← element (fun index => ck.getD index 0) 32 core.i
    let rk ← extendArray rk core.i constant true
    let i := core.i + 1
    let next := if i = 32 then { next with rkReady := true } else next
    return (next, { core with i := i, rk := rk })
  else some (next, core)

def encDec (now next : Signals) (core : Core) : Option (Signals × Core) :=
  if !now.coreRst then
    some ({ next with encdataReady := false, decdataReady := false },
      { core with j := 0 })
  else if now.encDecEn then do
    let x := load core.x (ranges now.data)
    if now.mode then
      let key ← element core.rk 36 (core.j + 4)
      let x ← extendArray x core.j key false
      let j := core.j + 1
      if j = 32 then
        let finish := concat ⟨x 35, x 34, x 33, x 32⟩
        return ({ next with encdataReady := true, dataOut := finish },
          { core with j := 0, x := x })
      return (next, { core with j := j, x := x })
    else
      let index ← difference 35 core.j
      let key ← element core.rk 36 index
      let x ← extendArray x core.j key false
      let j := core.j + 1
      if j = 32 then
        let finish := concat ⟨x 35, x 34, x 33, x 32⟩
        return ({ next with decdataReady := true, dataOut := finish },
          { core with j := j, x := x })
      return (next, { core with j := j, x := x })
  else some (next, core)

/-! ## Edges -/

/-- The evaluation phase of an edge.  The two processes of the core may run in
either order. -/
def evaluate (keyExpFirst : Bool) (accelerator : Accelerator) :
    Option (Signals × Core) := do
  let now := accelerator.signals
  let next := controlProc accelerator.rst accelerator.socket now
  if keyExpFirst then
    let (next, core) ← keyExp now next accelerator.core
    encDec now next core
  else
    let (next, core) ← encDec now next accelerator.core
    keyExp now next core

/-- The signals that `state_proc` is sensitive to. -/
def Signals.watched (signals : Signals) : List Bool :=
  [signals.coreRst, signals.keyExpEn, signals.rkReady, signals.encDecEn,
    signals.mode, signals.encdataReady, signals.decdataReady]

/-- One delta cycle: what changed wakes the processes that are sensitive to
it. -/
def delta (before after : Signals) (core : Core) : Option (Signals × Core) := do
  let next :=
    if before.watched = after.watched then after else stateProc after after
  if before.coreRst && !after.coreRst then
    let (next, core) ← keyExp after next core
    encDec after next core
  else some (next, core)

/-- A number of delta cycles; four are enough for everything to settle. -/
def settle : ℕ → Signals → Signals → Core → Option (Signals × Core)
  | 0, _, after, core => some (after, core)
  | cycles + 1, before, after, core => do
      let (next, core) ← delta before after core
      settle cycles after next core

def edge (keyExpFirst : Bool) (accelerator : Accelerator) :
    Option Accelerator := do
  let (next, core) ← evaluate keyExpFirst accelerator
  let (signals, core) ← settle 4 accelerator.signals next core
  return { accelerator with signals := signals, core := core }

/-! ## The socket -/

/-- The register that `SM4_write` sets, if the address names one. -/
def Socket.setRegister (socket : Socket) (addr : ℕ) (data : Word) :
    Option Socket :=
  match addr with
  | 0x20 => some { socket with controlInReg := data }
  | 0x00 => some { socket with xInReg := { socket.xInReg with w0 := data } }
  | 0x04 => some { socket with xInReg := { socket.xInReg with w1 := data } }
  | 0x08 => some { socket with xInReg := { socket.xInReg with w2 := data } }
  | 0x0c => some { socket with xInReg := { socket.xInReg with w3 := data } }
  | _ => none

/-- `SM4_write` up to its `wait`. -/
def Socket.begin (socket : Socket) (addr : ℕ) (data : Word) : Socket :=
  match socket.setRegister addr data with
  | some socket => { socket with writing := true }
  | none => socket

/-- `SM4_write` after its `wait`: the data output gets what `x_in` was. -/
def Socket.finish (socket : Socket) : Socket :=
  { socket with
    xIn := concat socket.xInReg
    dataOptOut := socket.controlInReg
    dataOut := socket.xIn
    writing := false }

/-- `SM4_read`; other addresses leave the buffer alone. -/
def Accelerator.read (accelerator : Accelerator) (addr : ℕ) : Option Word :=
  let y := ranges accelerator.signals.dataOut
  match addr with
  | 0x24 => some accelerator.signals.dataState
  | 0x10 => some y.w0
  | 0x14 => some y.w1
  | 0x18 => some y.w2
  | 0x1c => some y.w3
  | _ => none

inductive Event : Type
  /-- `rst_signal` rises. -/
  | release
  | edge (keyExpFirst : Bool)
  /-- A write begins; the next one begins when this one has finished. -/
  | begin (addr : ℕ) (data : Word)
  | finish
  deriving DecidableEq, Repr

/-- What an event does; an event that cannot happen does nothing. -/
def step (accelerator : Accelerator) : Event → Option Accelerator
  | .release => some { accelerator with rst := true }
  | .edge keyExpFirst => edge keyExpFirst accelerator
  | .begin addr data =>
      if accelerator.socket.writing then some accelerator
      else some { accelerator with socket := accelerator.socket.begin addr data }
  | .finish =>
      if accelerator.socket.writing then
        some { accelerator with socket := accelerator.socket.finish }
      else some accelerator

end Sm4

end RiscvVp
