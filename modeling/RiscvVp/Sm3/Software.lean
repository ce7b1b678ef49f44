import Mathlib.Data.List.Basic
import RiscvVp.Cipher.Expansion

/-!
# SM3 in software

`sw/sm3_sw/SM3.h`.  The arrays of eight words are records, longer ones
functions on their indices; no index below leaves its array.
-/

namespace RiscvVp

namespace Sm3

abbrev Word : Type := BitVec 32

/-- An array of eight words, indexed by `A` to `H`. -/
structure Chain : Type where
  a : Word
  b : Word
  c : Word
  d : Word
  e : Word
  f : Word
  g : Word
  h : Word
  deriving DecidableEq, Repr

namespace Chain

def get (chain : Chain) : ℕ → Word
  | 0 => chain.a
  | 1 => chain.b
  | 2 => chain.c
  | 3 => chain.d
  | 4 => chain.e
  | 5 => chain.f
  | 6 => chain.g
  | _ => chain.h

/-- `V_buf[j] ^ V[j]` for every `j`. -/
def xor (chain other : Chain) : Chain :=
  ⟨chain.a ^^^ other.a, chain.b ^^^ other.b, chain.c ^^^ other.c,
    chain.d ^^^ other.d, chain.e ^^^ other.e, chain.f ^^^ other.f,
    chain.g ^^^ other.g, chain.h ^^^ other.h⟩

end Chain

/-- 512 bits, as the bytes of `message_buf`. -/
abbrev MessageBlock : Type := Vector (BitVec 8) 64

def MessageBlock.byte (block : MessageBlock) (index : ℕ) : BitVec 8 :=
  block.toArray.getD index 0

/-- The sixteen words of a block: the driver builds them the same way. -/
def MessageBlock.word (block : MessageBlock) (j : ℕ) : Word :=
  ((block.byte (j * 4 + 0)).setWidth 32 <<< 24) &&& 0xFF000000 |||
    ((block.byte (j * 4 + 1)).setWidth 32 <<< 16) &&& 0x00FF0000 |||
    ((block.byte (j * 4 + 2)).setWidth 32 <<< 8) &&& 0x0000FF00 |||
    ((block.byte (j * 4 + 3)).setWidth 32 <<< 0) &&& 0x000000FF

namespace Software

def iv : Chain where
  a := 0x7380166F
  b := 0x4914B2B9
  c := 0x172442D7
  d := 0xDA8A0600
  e := 0xA96F30BC
  f := 0x163138AA
  g := 0xE38DEE4D
  h := 0xB0FB0E4E

/-- `T` after `T_init`. -/
def t (j : ℕ) : Word :=
  if j < 16 then 0x79CC4519 else if j < 64 then 0x7A879D8A else 0

/-- `SM3_Rotl32`.  C leaves the shift by 32 open that a rotation by 0 asks
for; the processor's shifts take the last five bits of the distance. -/
def sm3Rotl32 (buf : Word) (n : ℕ) : Word :=
  (buf <<< (n % 32)) ||| (buf >>> ((32 - n) % 32))

/-- `FF` -/
def ff (x y z : Word) (j : ℕ) : Word :=
  if j ≤ 15 then x ^^^ y ^^^ z
  else if 16 ≤ j ∧ j ≤ 63 then (x &&& y) ||| (x &&& z) ||| (y &&& z)
  else 0

/-- `GG` -/
def gg (x y z : Word) (j : ℕ) : Word :=
  if j ≤ 15 then x ^^^ y ^^^ z
  else if 16 ≤ j ∧ j ≤ 63 then (x &&& y) ||| (~~~x &&& z)
  else 0

def p0 (x : Word) : Word :=
  x ^^^ sm3Rotl32 x 9 ^^^ sm3Rotl32 x 17

def p1 (x : Word) : Word :=
  x ^^^ sm3Rotl32 x 15 ^^^ sm3Rotl32 x 23

/-- The word that the second loop of `message_ext` computes. -/
def expandedWord (w68 : ℕ → Word) (j : ℕ) : Word :=
  p1 (w68 (j - 16) ^^^ w68 (j - 9) ^^^ sm3Rotl32 (w68 (j - 3)) 15) ^^^
    sm3Rotl32 (w68 (j - 13)) 7 ^^^ w68 (j - 6)

/-- `message_ext`, on the arrays `W68` and `W64`. -/
def messageExt (block : MessageBlock) (w68 w64 : ℕ → Word) :
    (ℕ → Word) × (ℕ → Word) :=
  let w68 := (List.range 16).foldl
    (fun w68 j => Function.update w68 j (block.word j)) w68
  let w68 := (List.range' 16 52).foldl
    (fun w68 j => Function.update w68 j (expandedWord w68 j)) w68
  let w64 := (List.range 64).foldl
    (fun w64 j => Function.update w64 j (w68 j ^^^ w68 (j + 4))) w64
  (w68, w64)

/-- The body of the second loop of `CF`. -/
def cfRound (w68 w64 : ℕ → Word) (vBuf : Chain) (j : ℕ) : Chain :=
  let ss1 :=
    sm3Rotl32 (sm3Rotl32 vBuf.a 12 + vBuf.e + sm3Rotl32 (t j) (j % 32)) 7
  let ss2 := ss1 ^^^ sm3Rotl32 vBuf.a 12
  let tt1 := ff vBuf.a vBuf.b vBuf.c j + vBuf.d + ss2 + w64 j
  let tt2 := gg vBuf.e vBuf.f vBuf.g j + vBuf.h + ss1 + w68 j
  { d := vBuf.c
    c := sm3Rotl32 vBuf.b 9
    b := vBuf.a
    a := tt1
    h := vBuf.g
    g := sm3Rotl32 vBuf.f 19
    f := vBuf.e
    e := p0 tt2 }

/-- `CF` -/
def cf (v : Chain) (w68 w64 : ℕ → Word) : Chain :=
  ((List.range 64).foldl (cfRound w68 w64) v).xor v

/-- The loop over the blocks in `SM3`: the arrays are those of the block
before. -/
def sm3Block (state : Chain × (ℕ → Word) × (ℕ → Word)) (block : MessageBlock) :
    Chain × (ℕ → Word) × (ℕ → Word) :=
  let (v, w68, w64) := state
  let (w68, w64) := messageExt block w68 w64
  (cf v w68 w64, w68, w64)

/-- `V` when `SM3` returns. -/
def sm3 (blocks : List MessageBlock) : Chain :=
  (blocks.foldl sm3Block (iv, fun _ => 0, fun _ => 0)).1

end Software

/-! ## The hash function -/

open Software

def messageExpansion : Expansion Word where
  start := 16
  next := expandedWord
  depends := by
    intro first second index late agree
    have other : ∀ distance ∈ [16, 9, 3, 13, 6],
        first (index - distance) = second (index - distance) := by
      intro distance member
      apply agree
      simp only [List.mem_cons, List.not_mem_nil, or_false] at member
      omega
    simp only [expandedWord, other 16 (by simp), other 9 (by simp),
      other 3 (by simp), other 13 (by simp), other 6 (by simp)]

theorem start_eq : 16 = messageExpansion.start :=
  rfl

theorem extend_eq :
    (fun w68 j => Function.update w68 j (expandedWord w68 j)) =
      messageExpansion.extend :=
  rfl

/-- `W68` of a block. -/
def MessageBlock.expanded (block : MessageBlock) (index : ℕ) : Word :=
  messageExpansion.word block.word index

/-- `W64` of a block. -/
def MessageBlock.mixed (block : MessageBlock) (index : ℕ) : Word :=
  block.expanded index ^^^ block.expanded (index + 4)

/-- The working words after a number of rounds. -/
def after (block : MessageBlock) (chain : Chain) (rounds : ℕ) : Chain :=
  (List.range rounds).foldl (cfRound block.expanded block.mixed) chain

def compress (chain : Chain) (block : MessageBlock) : Chain :=
  (after block chain 64).xor chain

def hash (blocks : List MessageBlock) : Chain :=
  blocks.foldl compress iv

theorem after_succ (block : MessageBlock) (chain : Chain) (rounds : ℕ) :
    after block chain (rounds + 1) =
      cfRound block.expanded block.mixed (after block chain rounds) rounds := by
  rw [after, List.range_succ, List.foldl_append]
  rfl

/-- A loop that sets one element after the other. -/
theorem foldl_update (array : ℕ → Word) (value : ℕ → Word) (count index : ℕ) :
    (List.range count).foldl
        (fun array j => Function.update array j (value j)) array index =
      if index < count then value index else array index := by
  induction count with
  | zero => rfl
  | succ count inductionHypothesis =>
      rw [List.range_succ, List.foldl_append, List.foldl_cons, List.foldl_nil]
      by_cases last : index = count
      · subst last
        rw [Function.update_self, if_pos (Nat.lt_succ_self index)]
      · rw [Function.update_of_ne last, inductionHypothesis]
        have same : index < count ↔ index < count + 1 := by omega
        simp only [same]

/-- What the arrays held before does not matter. -/
theorem messageExt_spec (block : MessageBlock) (w68 w64 : ℕ → Word) :
    (∀ j < 68, (messageExt block w68 w64).1 j = block.expanded j) ∧
      ∀ j < 64, (messageExt block w68 w64).2 j = block.mixed j := by
  generalize loaded_eq : (List.range 16).foldl
    (fun w68 j => Function.update w68 j (block.word j)) w68 = loaded
  have given : ∀ j < messageExpansion.start, loaded j = block.word j := by
    intro j below
    have first : j < 16 := below
    rw [← loaded_eq, foldl_update, if_pos first]
  have holds : messageExpansion.Holds loaded block.word 0 :=
    Expansion.holds_of_given given
  have extended : (messageExt block w68 w64).1 = messageExpansion.fill loaded 52 := by
    rw [messageExt, loaded_eq, ← messageExpansion.foldl_extend, ← extend_eq,
      ← start_eq]
  have words : ∀ j < 68, (messageExt block w68 w64).1 j = block.expanded j := by
    intro j below
    rw [extended, MessageBlock.expanded]
    apply holds.fill 52
    rw [← start_eq]
    exact below
  refine ⟨words, ?_⟩
  intro j below
  have unfolded : (messageExt block w68 w64).2 j =
      (messageExt block w68 w64).1 j ^^^ (messageExt block w68 w64).1 (j + 4) := by
    simp only [messageExt]
    rw [foldl_update, if_pos below]
  rw [unfolded, words j (by omega), words (j + 4) (by omega), MessageBlock.mixed]

theorem cfRound_congr {w68 w64 other68 other64 : ℕ → Word} (vBuf : Chain)
    {j : ℕ} (same68 : w68 j = other68 j) (same64 : w64 j = other64 j) :
    cfRound w68 w64 vBuf j = cfRound other68 other64 vBuf j := by
  simp only [cfRound, same68, same64]

theorem cf_eq (chain : Chain) {block : MessageBlock} {w68 w64 : ℕ → Word}
    (same68 : ∀ j < 64, w68 j = block.expanded j)
    (same64 : ∀ j < 64, w64 j = block.mixed j) :
    cf chain w68 w64 = compress chain block := by
  have rounds : (List.range 64).foldl (cfRound w68 w64) chain =
      after block chain 64 := by
    rw [after]
    apply List.foldl_ext
    intro vBuf j member
    have below : j < 64 := List.mem_range.mp member
    exact cfRound_congr vBuf (same68 j below) (same64 j below)
  rw [cf, rounds, compress]

theorem sm3Block_eq (chain : Chain) (w68 w64 : ℕ → Word) (block : MessageBlock) :
    (sm3Block (chain, w68, w64) block).1 = compress chain block := by
  obtain ⟨words, mixed⟩ := messageExt_spec block w68 w64
  exact cf_eq chain (fun j below => words j (by omega)) mixed

/-- The loop of `SM3` compresses one block after the other. -/
theorem sm3_eq (blocks : List MessageBlock) : sm3 blocks = hash blocks := by
  have general : ∀ state, (blocks.foldl sm3Block state).1 =
      blocks.foldl compress state.1 := by
    induction blocks with
    | nil => exact fun state => rfl
    | cons block blocks inductionHypothesis =>
        rintro ⟨chain, w68, w64⟩
        rw [List.foldl_cons, List.foldl_cons, inductionHypothesis, sm3Block_eq]
  exact general _

end Sm3

end RiscvVp
