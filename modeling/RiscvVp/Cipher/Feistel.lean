import Mathlib.Data.Nat.Notation
import Mathlib.Logic.Function.Basic

/-!
# Feistel networks over four words

One round drops the first word of a block and appends it, mixed with a function
of a round key and of the other three.  A cipher runs a number of rounds and
reads the last block backwards.

If mixing twice cancels and the round function does not see the order of its
words, the same cipher under the reversed keys is its own inverse.

Implementations keep all words in one array and extend it round by round; they
compute the same words.
-/

namespace RiscvVp

namespace Feistel

/-- Four words. -/
structure Block (α : Type) : Type where
  w0 : α
  w1 : α
  w2 : α
  w3 : α
  deriving DecidableEq, Repr

namespace Block

variable {α : Type}

def reverse (block : Block α) : Block α :=
  ⟨block.w3, block.w2, block.w1, block.w0⟩

@[simp]
theorem reverse_reverse (block : Block α) : block.reverse.reverse = block :=
  rfl

/-- The words of a block as an array; nothing reads it past the fourth. -/
def get (block : Block α) : ℕ → α
  | 0 => block.w0
  | 1 => block.w1
  | 2 => block.w2
  | _ => block.w3

/-- The first four words of an array. -/
def ofArray (array : ℕ → α) : Block α :=
  ⟨array 0, array 1, array 2, array 3⟩

@[simp]
theorem ofArray_get (block : Block α) : ofArray block.get = block :=
  rfl

end Block

section Network

variable {α κ : Type} (mix : α → α → α) (roundFunction : κ → α → α → α → α)

def round (key : κ) (block : Block α) : Block α :=
  ⟨block.w1, block.w2, block.w3,
    mix block.w0 (roundFunction key block.w1 block.w2 block.w3)⟩

/-- The block after a number of rounds. -/
def after (keys : ℕ → κ) (start : Block α) : ℕ → Block α
  | 0 => start
  | rounds + 1 =>
      round mix roundFunction (keys rounds) (after keys start rounds)

/-- The words that the rounds produce, the four first words included. -/
def word (keys : ℕ → κ) (start : Block α) (index : ℕ) : α :=
  (after mix roundFunction keys start index).w0

/-- A number of rounds, and the last block backwards. -/
def crypt (keys : ℕ → κ) (rounds : ℕ) (start : Block α) : Block α :=
  (after mix roundFunction keys start rounds).reverse

variable {mix roundFunction}

theorem word_add_four (keys : ℕ → κ) (start : Block α) (index : ℕ) :
    word mix roundFunction keys start (index + 4) =
      mix (word mix roundFunction keys start index)
        (roundFunction (keys index)
          (word mix roundFunction keys start (index + 1))
          (word mix roundFunction keys start (index + 2))
          (word mix roundFunction keys start (index + 3))) :=
  rfl

theorem word_start (keys : ℕ → κ) (start : Block α) {index : ℕ}
    (first : index < 4) :
    word mix roundFunction keys start index = start.get index := by
  match index, first with
  | 0, _ => rfl
  | 1, _ => rfl
  | 2, _ => rfl
  | 3, _ => rfl

theorem crypt_eq (keys : ℕ → κ) (rounds : ℕ) (start : Block α) :
    crypt mix roundFunction keys rounds start =
      ⟨word mix roundFunction keys start (rounds + 3),
        word mix roundFunction keys start (rounds + 2),
        word mix roundFunction keys start (rounds + 1),
        word mix roundFunction keys start rounds⟩ :=
  rfl

/-- Only the keys of the rounds matter. -/
theorem after_congr {keys others : ℕ → κ} {start : Block α} {rounds : ℕ}
    (same : ∀ index < rounds, keys index = others index) :
    after mix roundFunction keys start rounds =
      after mix roundFunction others start rounds := by
  induction rounds with
  | zero => rfl
  | succ rounds inductionHypothesis =>
      have earlier : ∀ index < rounds, keys index = others index :=
        fun index below => same index (Nat.lt_succ_of_lt below)
      simp only [after, inductionHypothesis earlier,
        same rounds (Nat.lt_succ_self rounds)]

theorem crypt_congr {keys others : ℕ → κ} {start : Block α} {rounds : ℕ}
    (same : ∀ index < rounds, keys index = others index) :
    crypt mix roundFunction keys rounds start =
      crypt mix roundFunction others rounds start := by
  rw [crypt, crypt, after_congr same]

/-! ## Inversion -/

section Inversion

variable (cancels : ∀ value other, mix (mix value other) other = value)
  (symmetric : ∀ key first second third,
    roundFunction key first second third =
      roundFunction key third second first)

include cancels symmetric

/-- A round undoes itself on the block read backwards. -/
theorem round_reverse_round (key : κ) (block : Block α) :
    round mix roundFunction key
        (round mix roundFunction key block).reverse = block.reverse := by
  simp only [round, Block.reverse]
  rw [symmetric key block.w3, cancels]

/-- The rounds under the reversed keys walk back through the blocks. -/
theorem after_reverse {keys others : ℕ → κ} {total : ℕ}
    (reversed : ∀ index < total, others index = keys (total - 1 - index))
    (start : Block α) {rounds : ℕ} (within : rounds ≤ total) :
    after mix roundFunction others
        (after mix roundFunction keys start total).reverse rounds =
      (after mix roundFunction keys start (total - rounds)).reverse := by
  induction rounds with
  | zero => rfl
  | succ rounds inductionHypothesis =>
      have key : others rounds = keys (total - (rounds + 1)) := by
        rw [reversed rounds within]
        congr 1
        omega
      have previous : total - rounds = total - (rounds + 1) + 1 := by
        omega
      rw [after, inductionHypothesis (Nat.le_of_succ_le within), previous, after,
        key]
      exact round_reverse_round cancels symmetric _ _

/-- The cipher under the reversed keys inverts the cipher. -/
theorem crypt_crypt {keys others : ℕ → κ} {rounds : ℕ}
    (reversed : ∀ index < rounds, others index = keys (rounds - 1 - index))
    (start : Block α) :
    crypt mix roundFunction others rounds
      (crypt mix roundFunction keys rounds start) = start := by
  have back := after_reverse cancels symmetric reversed start
    (Nat.le_refl rounds)
  rw [Nat.sub_self] at back
  rw [crypt, crypt, back]
  rfl

end Inversion

/-! ## Arrays -/

/-- The round that extends an array by one word. -/
def extend (mix : α → α → α) (roundFunction : κ → α → α → α → α)
    (keys : ℕ → κ) (array : ℕ → α) (index : ℕ) : ℕ → α :=
  Function.update array (index + 4)
    (mix (array index)
      (roundFunction (keys index) (array (index + 1)) (array (index + 2))
        (array (index + 3))))

/-- An array that holds the words up to a number of rounds. -/
def Holds (mix : α → α → α) (roundFunction : κ → α → α → α → α)
    (keys : ℕ → κ) (start : Block α) (rounds : ℕ) (array : ℕ → α) : Prop :=
  ∀ index < rounds + 4, array index = word mix roundFunction keys start index

theorem holds_zero {keys : ℕ → κ} {start : Block α} {array : ℕ → α}
    (first : Block.ofArray array = start) :
    Holds mix roundFunction keys start 0 array := by
  intro index below
  subst first
  rw [word_start keys _ (by omega)]
  match index, below with
  | 0, _ => rfl
  | 1, _ => rfl
  | 2, _ => rfl
  | 3, _ => rfl

theorem holds_extend {keys : ℕ → κ} {start : Block α} {rounds : ℕ}
    {array : ℕ → α} (holds : Holds mix roundFunction keys start rounds array) :
    Holds mix roundFunction keys start (rounds + 1)
      (extend mix roundFunction keys array rounds) := by
  intro index below
  by_cases last : index = rounds + 4
  · subst last
    rw [extend, Function.update_self, word_add_four,
      holds rounds (by omega), holds (rounds + 1) (by omega),
      holds (rounds + 2) (by omega), holds (rounds + 3) (by omega)]
  · rw [extend, Function.update_of_ne last]
    exact holds index (by omega)

/-- A loop over the rounds fills the array. -/
theorem holds_foldl (keys : ℕ → κ) (array : ℕ → α) (rounds : ℕ) :
    Holds mix roundFunction keys (Block.ofArray array) rounds
      ((List.range rounds).foldl (extend mix roundFunction keys) array) := by
  induction rounds with
  | zero => exact holds_zero rfl
  | succ rounds inductionHypothesis =>
      rw [List.range_succ, List.foldl_append]
      exact holds_extend inductionHypothesis

/-- An array whose words from the fifth on are those of a number of rounds; the
first four may have been overwritten since. -/
def Computed (mix : α → α → α) (roundFunction : κ → α → α → α → α)
    (keys : ℕ → κ) (start : Block α) (rounds : ℕ) (array : ℕ → α) : Prop :=
  ∀ index < rounds,
    array (index + 4) = word mix roundFunction keys start (index + 4)

theorem computed_zero {keys : ℕ → κ} {start : Block α} {array : ℕ → α} :
    Computed mix roundFunction keys start 0 array :=
  nofun

theorem computed_congr {keys : ℕ → κ} {start : Block α} {rounds : ℕ}
    {array other : ℕ → α} (same : ∀ index, array (index + 4) = other (index + 4))
    (computed : Computed mix roundFunction keys start rounds array) :
    Computed mix roundFunction keys start rounds other :=
  fun index below => (same index).symm.trans (computed index below)

/-- The next round needs those of the first four words that it reads. -/
theorem computed_extend {keys used : ℕ → κ} {start : Block α} {rounds : ℕ}
    {array : ℕ → α} (computed : Computed mix roundFunction keys start rounds array)
    (first : ∀ index < 4, rounds ≤ index → array index = start.get index)
    (key : used rounds = keys rounds) :
    Computed mix roundFunction keys start (rounds + 1)
      (extend mix roundFunction used array rounds) := by
  have read : ∀ index, rounds ≤ index → index < rounds + 4 →
      array index = word mix roundFunction keys start index := by
    intro index least below
    by_cases early : index < 4
    · rw [first index early least, word_start keys start early]
    · have later := computed (index - 4) (by omega)
      have same : index - 4 + 4 = index := by omega
      rwa [same] at later
  intro index below
  by_cases last : index = rounds
  · subst last
    rw [extend, Function.update_self, word_add_four, key,
      read index (by omega) (by omega), read (index + 1) (by omega) (by omega),
      read (index + 2) (by omega) (by omega),
      read (index + 3) (by omega) (by omega)]
  · have differs : index + 4 ≠ rounds + 4 := by omega
    rw [extend, Function.update_of_ne differs]
    exact computed index (by omega)

/-- The last four words, read backwards, are the cipher's result. -/
theorem Computed.crypt_eq {keys : ℕ → κ} {start : Block α} {rounds : ℕ}
    {array : ℕ → α}
    (computed : Computed mix roundFunction keys start (rounds + 4) array) :
    (⟨array (rounds + 7), array (rounds + 6), array (rounds + 5),
      array (rounds + 4)⟩ : Block α) =
        crypt mix roundFunction keys (rounds + 4) start := by
  have first := computed rounds (by omega)
  have second := computed (rounds + 1) (by omega)
  have third := computed (rounds + 2) (by omega)
  have fourth := computed (rounds + 3) (by omega)
  rw [Feistel.crypt_eq, first, second, third, fourth]

end Network

end Feistel

end RiscvVp
