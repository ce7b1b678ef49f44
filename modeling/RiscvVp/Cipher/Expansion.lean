import Mathlib.Data.Nat.Notation
import Mathlib.Logic.Function.Basic

/-!
# Message expansion

A hash function expands the first words of a block by a recurrence: each
further word is computed from words before it.  A program that fills an array
up front and a circuit that adds a word per clock edge hold the same words.
-/

namespace RiscvVp

/-- The word at an index, from the words before it. -/
structure Expansion (α : Type) : Type where
  /-- How many words are given. -/
  start : ℕ
  next : (ℕ → α) → ℕ → α
  depends : ∀ first second index, start ≤ index →
    (∀ earlier < index, first earlier = second earlier) →
    next first index = next second index

namespace Expansion

variable {α : Type} (expansion : Expansion α)

/-- One more word of the array. -/
def extend (array : ℕ → α) (index : ℕ) : ℕ → α :=
  Function.update array index (expansion.next array index)

/-- The array after a number of further words. -/
def fill (array : ℕ → α) : ℕ → ℕ → α
  | 0 => array
  | count + 1 => expansion.extend (fill array count) (expansion.start + count)

/-- The word at an index of the expanded block. -/
def word (block : ℕ → α) (index : ℕ) : α :=
  expansion.fill block (index + 1 - expansion.start) index

/-- The given words and some further ones are in the array. -/
def Holds (array block : ℕ → α) (count : ℕ) : Prop :=
  ∀ index < expansion.start + count, array index = expansion.word block index

theorem foldl_extend (array : ℕ → α) (count : ℕ) :
    (List.range' expansion.start count).foldl expansion.extend array =
      expansion.fill array count := by
  induction count with
  | zero => rfl
  | succ count inductionHypothesis =>
      rw [List.range'_concat, List.foldl_append, inductionHypothesis,
        Nat.one_mul]
      rfl

/-- A word once there stays as it is. -/
theorem fill_add (array : ℕ → α) {count index : ℕ}
    (below : index < expansion.start + count) (more : ℕ) :
    expansion.fill array (count + more) index =
      expansion.fill array count index := by
  induction more with
  | zero => rfl
  | succ more inductionHypothesis =>
      have other : index ≠ expansion.start + (count + more) := by omega
      rw [← Nat.add_assoc, fill, extend, Function.update_of_ne other]
      exact inductionHypothesis

theorem word_eq_fill (block : ℕ → α) {count index : ℕ}
    (below : index < expansion.start + count) :
    expansion.word block index = expansion.fill block count index := by
  have enough : index + 1 - expansion.start ≤ count := by omega
  obtain ⟨more, rfl⟩ := Nat.exists_eq_add_of_le enough
  exact (expansion.fill_add block (by omega) more).symm

theorem word_of_lt (block : ℕ → α) {index : ℕ}
    (given : index < expansion.start) : expansion.word block index = block index := by
  have first : index < expansion.start + 0 := given
  rw [expansion.word_eq_fill block first, fill]

/-- The recurrence, for the expanded block. -/
theorem word_of_ge (block : ℕ → α) {index : ℕ} (late : expansion.start ≤ index) :
    expansion.word block index =
      expansion.next (expansion.word block) index := by
  obtain ⟨count, rfl⟩ := Nat.exists_eq_add_of_le late
  have below : expansion.start + count < expansion.start + (count + 1) :=
    Nat.lt_succ_self _
  rw [expansion.word_eq_fill block below, fill, extend, Function.update_self]
  apply expansion.depends _ _ _ late
  intro earlier before
  exact (expansion.word_eq_fill block before).symm

variable {expansion}

theorem holds_of_given {array block : ℕ → α}
    (given : ∀ index < expansion.start, array index = block index) :
    expansion.Holds array block 0 := by
  intro index below
  rw [given index below, expansion.word_of_lt block below]

/-- The recurrence adds the word that belongs there. -/
theorem Holds.extend {array block : ℕ → α} {count : ℕ}
    (holds : expansion.Holds array block count) :
    expansion.Holds (expansion.extend array (expansion.start + count)) block
      (count + 1) := by
  intro index below
  by_cases last : index = expansion.start + count
  · subst last
    have agree : ∀ earlier < expansion.start + count,
        array earlier = expansion.fill block count earlier := by
      intro earlier before
      rw [holds earlier before, expansion.word_eq_fill block before]
    rw [expansion.word_eq_fill block below, fill, Expansion.extend,
      Expansion.extend, Function.update_self, Function.update_self]
    exact expansion.depends _ _ _ (Nat.le_add_right _ _) agree
  · rw [Expansion.extend, Function.update_of_ne last]
    exact holds index (by omega)

theorem Holds.fill {array block : ℕ → α}
    (holds : expansion.Holds array block 0) (count : ℕ) :
    expansion.Holds (expansion.fill array count) block count := by
  induction count with
  | zero => exact holds
  | succ count inductionHypothesis => exact inductionHypothesis.extend

end Expansion

end RiscvVp
