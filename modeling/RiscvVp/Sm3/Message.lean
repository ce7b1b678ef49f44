import Mathlib
import RiscvVp.Rv32.Nice
import RiscvVp.Sm3.Standard

/-!
# Messages of bytes

`SM3` of `sw/sm3_sw/SM3.h` and `SM3_nice` of `sw/sm3_nice/insn.c` fill a buffer
with the message and its padding and hash the buffer's blocks.  The buffer has
room for a byte more than the padding needs, so that a message of 55 bytes more
than whole blocks is given a block too many, and the length in bits is computed
in 32 bits.

`malloc` is taken to succeed.  An access outside the buffer has no meaning and is
no result.
-/

namespace RiscvVp

namespace Sm3

open Padding

/-- A message whose length is an `unsigned int`. -/
structure Message : Type where
  bytes : List Byte
  fits : bytes.length < 2 ^ 32

/-- `message_len` -/
def Message.len (message : Message) : Word :=
  BitVec.ofNat 32 message.bytes.length

theorem Message.toNat_len (message : Message) :
    message.len.toNat = message.bytes.length :=
  Nat.mod_eq_of_lt message.fits

/-! ## The buffer -/

/-- `num` -/
def blockCount (messageLen : Word) : Word := (messageLen + 1 + 8 + 64) / 64

/-- `memcpy(buffer, source, length)` -/
def memcpy (buffer source : List Byte) : Option (List Byte) :=
  if source.length ≤ buffer.length then
    some (source ++ buffer.drop source.length)
  else none

/-- `buffer[index] = value` -/
def store (buffer : List Byte) (index : ℕ) (value : Byte) :
    Option (List Byte) :=
  if index < buffer.length then some (buffer.set index value) else none

/-- The byte of the length that the loop stores in turn `i`. -/
def lengthByte (messageLen : Word) (i : ℕ) : Byte :=
  ((messageLen * 8).setWidth 64 >>> (i * 8)).setWidth 8

/-- `message_buf` -/
def messageBuf (message : Message) : Option (List Byte) := do
  let num := blockCount message.len
  let buffer := List.replicate (num * 64).toNat 0
  let buffer ← memcpy buffer message.bytes
  let buffer ← store buffer message.len.toNat 0x80
  (List.range 8).foldlM
    (fun buffer i =>
      store buffer (num * 64 - BitVec.ofNat 32 i - 1).toNat
        (lengthByte message.len i))
    buffer

/-- `&message_buf[i * 64]` for every `i` of the loop -/
def blocks (num : ℕ) (buffer : List Byte) : List MessageBlock :=
  (List.range num).map fun i =>
    Vector.ofFn fun k : Fin 64 => buffer.getD (i * 64 + k) 0

/-- The blocks that are hashed. -/
def messageBlocks (message : Message) : Option (List MessageBlock) :=
  (messageBuf message).map (blocks (blockCount message.len).toNat)

/-! ## The two functions -/

/-- `SM3` -/
def sm3Message (message : Message) : Option Chain :=
  (messageBlocks message).map Software.sm3

namespace NiceSoftware

open Software Rv32.Sm3Nice

/-- The word that the second loop of `message_ext_nice` computes. -/
def expandedWord (w68 : ℕ → Word) (j : ℕ) : Word :=
  let w68Buf := w68 (j - 16) ^^^ w68 (j - 9) ^^^ sm3Rotl32 (w68 (j - 3)) 15
  let w68Temp := custom3Sm3p1 w68Buf
  w68Temp ^^^ sm3Rotl32 (w68 (j - 13)) 7 ^^^ w68 (j - 6)

/-- `message_ext_nice` -/
def messageExtNice (block : MessageBlock) (w68 w64 : ℕ → Word) :
    (ℕ → Word) × (ℕ → Word) :=
  let w68 := (List.range 16).foldl
    (fun w68 j => Function.update w68 j (block.word j)) w68
  let w68 := (List.range' 16 52).foldl
    (fun w68 j => Function.update w68 j (expandedWord w68 j)) w68
  let w64 := (List.range 64).foldl
    (fun w64 j => Function.update w64 j (w68 j ^^^ w68 (j + 4))) w64
  (w68, w64)

/-- The body of the second loop of `CF_nice`. -/
def cfRound (w68 w64 : ℕ → Word) (vBuf : Chain) (j : ℕ) : Chain :=
  let ss1 :=
    sm3Rotl32 (sm3Rotl32 vBuf.a 12 + vBuf.e + sm3Rotl32 (t j) (j % 32)) 7
  let ss2 := ss1 ^^^ sm3Rotl32 vBuf.a 12
  let tt1 := Software.ff vBuf.a vBuf.b vBuf.c j + vBuf.d + ss2 + w64 j
  let tt2 := Software.gg vBuf.e vBuf.f vBuf.g j + vBuf.h + ss1 + w68 j
  { d := vBuf.c
    c := sm3Rotl32 vBuf.b 9
    b := vBuf.a
    a := tt1
    h := vBuf.g
    g := sm3Rotl32 vBuf.f 19
    f := vBuf.e
    e := custom3Sm3p0 tt2 }

/-- `CF_nice` -/
def cfNice (v : Chain) (w68 w64 : ℕ → Word) : Chain :=
  ((List.range 64).foldl (cfRound w68 w64) v).xor v

/-- The loop over the blocks in `SM3_nice`. -/
def sm3Block (state : Chain × (ℕ → Word) × (ℕ → Word)) (block : MessageBlock) :
    Chain × (ℕ → Word) × (ℕ → Word) :=
  let (v, w68, w64) := state
  let (w68, w64) := messageExtNice block w68 w64
  (cfNice v w68 w64, w68, w64)

def sm3 (blocks : List MessageBlock) : Chain :=
  (blocks.foldl sm3Block (Software.iv, fun _ => 0, fun _ => 0)).1

end NiceSoftware

/-- `SM3_nice` -/
def sm3Nice (message : Message) : Option Chain :=
  (messageBlocks message).map NiceSoftware.sm3

/-! ## The instructions compute the same words -/

section Nice

open NiceSoftware

theorem custom3Sm3p0_eq : Rv32.Sm3Nice.custom3Sm3p0 = Software.p0 :=
  funext fun x => (Software.standard_p0_eq x).symm

theorem custom3Sm3p1_eq : Rv32.Sm3Nice.custom3Sm3p1 = Software.p1 :=
  funext fun x => (Software.standard_p1_eq x).symm

theorem messageExtNice_eq :
    messageExtNice = Software.messageExt := by
  have word : NiceSoftware.expandedWord = Software.expandedWord := by
    funext w68 j
    rw [NiceSoftware.expandedWord, custom3Sm3p1_eq]
    rfl
  funext block w68 w64
  rw [messageExtNice, word]
  rfl

theorem cfNice_eq : cfNice = Software.cf := by
  have round : NiceSoftware.cfRound = Software.cfRound := by
    funext w68 w64 vBuf j
    rw [NiceSoftware.cfRound, custom3Sm3p0_eq]
    rfl
  funext v w68 w64
  rw [cfNice, round]
  rfl

/-- The function of the NICE version hashes blocks as the other one does. -/
theorem sm3_nice_eq : NiceSoftware.sm3 = Software.sm3 := by
  have block : NiceSoftware.sm3Block = Software.sm3Block := by
    funext state block
    rw [NiceSoftware.sm3Block, messageExtNice_eq, cfNice_eq]
    rfl
  funext blocks
  rw [NiceSoftware.sm3, block]
  rfl

end Nice

end Sm3

end RiscvVp
