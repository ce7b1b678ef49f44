import Mathlib.Data.Nat.Notation
import RiscvVp.Storage.Placement

/-!
# Words side by side and the bytes of a word

A number of words of one width, written as one long word with the first word
on top, and cut apart again; a word as its bytes, the lowest first, and bytes
copied over a part of it.
-/

namespace RiscvVp.Bits

open Storage

section Words

variable {width : ℕ}

/-- The first `count` words of an array as one word. -/
def concat (words : ℕ → BitVec width) : (count : ℕ) → BitVec (width * count)
  | 0 => 0
  | count + 1 => concat words count ++ words count

theorem concat_congr {words others : ℕ → BitVec width} {count : ℕ}
    (same : ∀ index < count, words index = others index) :
    concat words count = concat others count := by
  induction count with
  | zero => rfl
  | succ count inductionHypothesis =>
      have earlier : concat words count = concat others count :=
        inductionHypothesis fun index below => same index (Nat.lt_succ_of_lt below)
      rw [concat, concat, earlier, same count (Nat.lt_succ_self count)]

/-- Cutting the run of a word gives the word back. -/
theorem extractLsb'_concat (words : ℕ → BitVec width) {count index : ℕ}
    (below : index < count) :
    (concat words count).extractLsb' (width * (count - 1 - index)) width =
      words index := by
  induction count with
  | zero => exact absurd below (Nat.not_lt_zero index)
  | succ count inductionHypothesis =>
      rw [concat]
      by_cases last : index = count
      · subst last
        have start : width * (index + 1 - 1 - index) = 0 := by simp
        rw [start]
        exact BitVec.extractLsb'_append_eq_right
      · have earlier : index < count := by omega
        have places : count + 1 - 1 - index = (count - 1 - index) + 1 := by omega
        have start : width * (count + 1 - 1 - index) =
            width + width * (count - 1 - index) := by
          rw [places, Nat.mul_succ, Nat.add_comm]
        have above : width ≤ width * (count + 1 - 1 - index) := by omega
        refine (BitVec.extractLsb'_append_eq_of_le above).trans ?_
        rw [start, Nat.add_sub_cancel_left]
        exact inductionHypothesis earlier

end Words

variable {count : ℕ}

def byte (word : BitVec (8 * count)) (index : ℕ) : BitVec 8 :=
  word.extractLsb' (8 * index) 8

/-- The word with the given bytes. -/
def ofBytes (count : ℕ) (bytes : ℕ → BitVec 8) : BitVec (8 * count) :=
  concat (fun index => bytes (count - 1 - index)) count

@[simp]
theorem byte_ofBytes {index : ℕ} (below : index < count) (bytes : ℕ → BitVec 8) :
    byte (ofBytes count bytes) index = bytes index := by
  have fromTop : count - 1 - index < count := by omega
  have place : count - 1 - (count - 1 - index) = index := by omega
  have cut := extractLsb'_concat
    (fun index => bytes (count - 1 - index)) fromTop
  rwa [place] at cut

/-- Words are equal when their bytes are. -/
theorem eq_of_byte {left right : BitVec (8 * count)}
    (same : ∀ index < count, byte left index = byte right index) :
    left = right := by
  apply BitVec.eq_of_getLsbD_eq
  intro bit below
  have quotient : bit / 8 < count := Nat.div_lt_of_lt_mul below
  have place : 8 * (bit / 8) + bit % 8 = bit := Nat.div_add_mod bit 8
  have inByte : bit % 8 < 8 := Nat.mod_lt _ (by decide)
  have bits := congrArg (fun cut => cut.getLsbD (bit % 8)) (same _ quotient)
  simp only [byte, BitVec.getLsbD_extractLsb', place, inByte] at bits
  simpa using bits

theorem ofBytes_byte (word : BitVec (8 * count)) :
    ofBytes count (byte word) = word :=
  eq_of_byte fun _ below => byte_ofBytes below (byte word)

theorem ofBytes_inj {left right : ℕ → BitVec 8} :
    ofBytes count left = ofBytes count right ↔
      ∀ index < count, left index = right index := by
  constructor
  · intro same index below
    rw [← byte_ofBytes below left, same, byte_ofBytes below]
  · intro same
    refine eq_of_byte fun index below => ?_
    rw [byte_ofBytes below, byte_ofBytes below, same index below]

/-- `length` bytes from the byte `start` on are replaced. -/
def copyInto (word : BitVec (8 * count)) (start length : ℕ)
    (source : ℕ → BitVec 8) : BitVec (8 * count) :=
  ofBytes count (overwrite (byte word) start length source)

/-- A word that is replaced by as many bytes has these bytes. -/
theorem copyInto_whole (word : BitVec (8 * count)) (source : ℕ → BitVec 8) :
    copyInto word 0 count source = ofBytes count source := by
  refine ofBytes_inj.2 fun index below => ?_
  have inside : overwrite (byte word) 0 count source (0 + index) = source index :=
    overwrite_inside below
  rwa [Nat.zero_add] at inside

end RiscvVp.Bits
