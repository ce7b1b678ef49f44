import RiscvVp.Cipher.Padding
import RiscvVp.Sm3.Software

/-!
# The SM3 hash function

The function as its standard defines it: rotations of words, the expansion of a
block, the compression and the padding of a message of bits.  The guest's
software computes the same words, with shifts for the rotations.
-/

namespace RiscvVp

namespace Sm3

namespace Standard

def iv : Chain where
  a := 0x7380166F
  b := 0x4914B2B9
  c := 0x172442D7
  d := 0xDA8A0600
  e := 0xA96F30BC
  f := 0x163138AA
  g := 0xE38DEE4D
  h := 0xB0FB0E4E

def t (j : ℕ) : Word := if j < 16 then 0x79CC4519 else 0x7A879D8A

def ff (j : ℕ) (x y z : Word) : Word :=
  if j < 16 then x ^^^ y ^^^ z else (x &&& y) ||| (x &&& z) ||| (y &&& z)

def gg (j : ℕ) (x y z : Word) : Word :=
  if j < 16 then x ^^^ y ^^^ z else (x &&& y) ||| (~~~x &&& z)

def p0 (x : Word) : Word := x ^^^ x.rotateLeft 9 ^^^ x.rotateLeft 17

def p1 (x : Word) : Word := x ^^^ x.rotateLeft 15 ^^^ x.rotateLeft 23

/-- A word of the block, its first byte on top. -/
def blockWord (block : MessageBlock) (j : ℕ) : Word :=
  block.byte (j * 4) ++ block.byte (j * 4 + 1) ++ block.byte (j * 4 + 2) ++
    block.byte (j * 4 + 3)

/-- `W` of a block -/
def word (block : MessageBlock) (j : ℕ) : Word :=
  if j < 16 then blockWord block j
  else
    p1 (word block (j - 16) ^^^ word block (j - 9) ^^^
        (word block (j - 3)).rotateLeft 15) ^^^
      (word block (j - 13)).rotateLeft 7 ^^^ word block (j - 6)
termination_by j

/-- One round of the compression. -/
def round (block : MessageBlock) (v : Chain) (j : ℕ) : Chain :=
  let ss1 := (v.a.rotateLeft 12 + v.e + (t j).rotateLeft (j % 32)).rotateLeft 7
  let ss2 := ss1 ^^^ v.a.rotateLeft 12
  let tt1 := ff j v.a v.b v.c + v.d + ss2 + (word block j ^^^ word block (j + 4))
  let tt2 := gg j v.e v.f v.g + v.h + ss1 + word block j
  ⟨tt1, v.a, v.b.rotateLeft 9, v.c, p0 tt2, v.e, v.f.rotateLeft 19, v.g⟩

def compress (v : Chain) (block : MessageBlock) : Chain :=
  ((List.range 64).foldl (round block) v).xor v

/-- The bits of the blocks, one after another. -/
def blockBits (blocks : List MessageBlock) : List Bool :=
  Padding.bits (blocks.flatMap Vector.toList)

/-- The digest of a message: the padded message is cut into blocks, and these
are compressed one after another. -/
def IsDigest (message : List Bool) (digest : Chain) : Prop :=
  ∃ blocks, blockBits blocks = Padding.pad 512 64 message ∧
    digest = blocks.foldl compress iv

/-- Blocks are known by their bits. -/
theorem blockBits_injective {first second : List MessageBlock}
    (same : blockBits first = blockBits second) : first = second := by
  have bytes := Padding.bits_injective same
  clear same
  induction first generalizing second with
  | nil =>
      cases second with
      | nil => rfl
      | cons block blocks =>
          have lengths := congrArg List.length bytes
          rw [List.flatMap_nil, List.flatMap_cons, List.length_append,
            Vector.length_toList, List.length_nil] at lengths
          omega
  | cons block blocks inductionHypothesis =>
      cases second with
      | nil =>
          have lengths := congrArg List.length bytes
          rw [List.flatMap_nil, List.flatMap_cons, List.length_append,
            Vector.length_toList, List.length_nil] at lengths
          omega
      | cons other others =>
          rw [List.flatMap_cons, List.flatMap_cons] at bytes
          obtain ⟨head, tail⟩ := List.append_inj bytes (by simp)
          rw [Vector.toList_inj.mp head, inductionHypothesis tail]

/-- A message has one digest. -/
theorem IsDigest.unique {message : List Bool} {first second : Chain}
    (one : IsDigest message first) (another : IsDigest message second) :
    first = second := by
  obtain ⟨blocks, padded, rfl⟩ := one
  obtain ⟨others, paddedOthers, rfl⟩ := another
  rw [blockBits_injective (padded.trans paddedOthers.symm)]

end Standard

/-! ## The software computes it -/

namespace Software

theorem sm3Rotl32_eq (buf : Word) {n : ℕ} (small : n < 32) :
    sm3Rotl32 buf n = buf.rotateLeft n := by
  have left : n % 32 = n := Nat.mod_eq_of_lt small
  rw [sm3Rotl32, left, BitVec.rotateLeft_def, left]
  rcases Nat.eq_zero_or_pos n with zero | positive
  · subst zero
    simp [BitVec.ushiftRight_eq_zero]
  · have right : (32 - n) % 32 = 32 - n := Nat.mod_eq_of_lt (by omega)
    rw [right]

theorem standard_p0_eq (x : Word) : p0 x = Standard.p0 x := by
  rw [p0, Standard.p0, sm3Rotl32_eq x (by decide), sm3Rotl32_eq x (by decide)]

theorem standard_p1_eq (x : Word) : p1 x = Standard.p1 x := by
  rw [p1, Standard.p1, sm3Rotl32_eq x (by decide), sm3Rotl32_eq x (by decide)]

/-- The mask of a byte's place takes nothing away. -/
theorem shiftLeft_and_mask (byte : BitVec 8) (place : ℕ) :
    byte.setWidth 32 <<< place &&& (BitVec.allOnes 8).setWidth 32 <<< place =
      byte.setWidth 32 <<< place := by
  rw [← BitVec.shiftLeft_and_distrib, ← BitVec.setWidth_and, BitVec.and_allOnes]

theorem or_shiftLeft (byte3 byte2 byte1 byte0 : BitVec 8) :
    byte3.setWidth 32 <<< 24 ||| byte2.setWidth 32 <<< 16 |||
        byte1.setWidth 32 <<< 8 ||| byte0.setWidth 32 <<< 0 =
      byte3 ++ byte2 ++ byte1 ++ byte0 := by
  apply BitVec.eq_of_getLsbD_eq
  intro index small
  simp only [BitVec.getLsbD_append, BitVec.getLsbD_or, BitVec.getLsbD_shiftLeft,
    BitVec.getLsbD_setWidth]
  grind

theorem word_eq_blockWord (block : MessageBlock) (j : ℕ) :
    block.word j = Standard.blockWord block j := by
  have mask3 : ((0xFF000000 : ℕ) : Word) =
      (BitVec.allOnes 8).setWidth 32 <<< 24 := by decide
  have mask2 : ((0x00FF0000 : ℕ) : Word) =
      (BitVec.allOnes 8).setWidth 32 <<< 16 := by decide
  have mask1 : ((0x0000FF00 : ℕ) : Word) =
      (BitVec.allOnes 8).setWidth 32 <<< 8 := by decide
  have mask0 : (0x000000FF : Word) =
      (BitVec.allOnes 8).setWidth 32 <<< 0 := by decide
  rw [MessageBlock.word, mask3, mask2, mask1, mask0, shiftLeft_and_mask,
    shiftLeft_and_mask, shiftLeft_and_mask, shiftLeft_and_mask, or_shiftLeft]
  rfl

theorem expandedWord_eq (w68 : ℕ → Word) (j : ℕ) :
    expandedWord w68 j =
      Standard.p1 (w68 (j - 16) ^^^ w68 (j - 9) ^^^
          (w68 (j - 3)).rotateLeft 15) ^^^
        (w68 (j - 13)).rotateLeft 7 ^^^ w68 (j - 6) := by
  rw [expandedWord, standard_p1_eq, sm3Rotl32_eq _ (by decide),
    sm3Rotl32_eq _ (by decide)]

theorem expanded_eq (block : MessageBlock) (j : ℕ) :
    block.expanded j = Standard.word block j := by
  induction j using Nat.strongRecOn with
  | ind j inductionHypothesis =>
      rw [Standard.word, MessageBlock.expanded]
      by_cases given : j < 16
      · rw [if_pos given, messageExpansion.word_of_lt block.word given,
          word_eq_blockWord]
      · have late : messageExpansion.start ≤ j := Nat.le_of_not_lt given
        have earlier : ∀ distance, 0 < distance → distance ≤ 16 →
            messageExpansion.word block.word (j - distance) =
              Standard.word block (j - distance) :=
          fun distance positive within => inductionHypothesis _ (by omega)
        rw [if_neg given, messageExpansion.word_of_ge block.word late]
        change expandedWord (messageExpansion.word block.word) j = _
        rw [expandedWord_eq, earlier 16 (by decide) (by decide),
          earlier 9 (by decide) (by decide), earlier 3 (by decide) (by decide),
          earlier 13 (by decide) (by decide), earlier 6 (by decide) (by decide)]

/-- The functions of a round, for the rounds that there are. -/
theorem functions_eq (x y z : Word) {j : ℕ} (below : j < 64) :
    t j = Standard.t j ∧ ff x y z j = Standard.ff j x y z ∧
      gg x y z j = Standard.gg j x y z := by
  by_cases early : j < 16
  · have first : j ≤ 15 := by omega
    simp [t, ff, gg, Standard.t, Standard.ff, Standard.gg, early, first]
  · have first : ¬ j ≤ 15 := by omega
    have second : 16 ≤ j ∧ j ≤ 63 := by omega
    simp [t, ff, gg, Standard.t, Standard.ff, Standard.gg, early, first, second,
      below]

theorem cfRound_eq (block : MessageBlock) (v : Chain) {j : ℕ} (below : j < 64) :
    cfRound block.expanded block.mixed v j = Standard.round block v j := by
  have place : j % 32 < 32 := Nat.mod_lt _ (by decide)
  obtain ⟨constant, first, _⟩ := functions_eq v.a v.b v.c below
  obtain ⟨_, _, second⟩ := functions_eq v.e v.f v.g below
  simp only [cfRound, Standard.round, constant, first, second, standard_p0_eq,
    MessageBlock.mixed, expanded_eq, sm3Rotl32_eq _ place,
    sm3Rotl32_eq _ (show 12 < 32 by decide), sm3Rotl32_eq _ (show 7 < 32 by decide),
    sm3Rotl32_eq _ (show 9 < 32 by decide),
    sm3Rotl32_eq _ (show 19 < 32 by decide)]

theorem compress_eq (v : Chain) (block : MessageBlock) :
    compress v block = Standard.compress v block := by
  have rounds : after block v 64 =
      (List.range 64).foldl (Standard.round block) v := by
    apply List.foldl_ext
    intro v j member
    exact cfRound_eq block v (List.mem_range.mp member)
  rw [compress, Standard.compress, rounds]

/-- The software hashes blocks as the standard does. -/
theorem sm3_eq_standard (blocks : List MessageBlock) :
    sm3 blocks = blocks.foldl Standard.compress Standard.iv := by
  have start : iv = Standard.iv := rfl
  rw [sm3_eq, hash, funext₂ compress_eq, start]

end Software

end Sm3

end RiscvVp
