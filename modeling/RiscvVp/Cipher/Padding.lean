import Mathlib

/-!
# Padding to whole blocks

A hash function takes a message of bits: it adds a one, as few zeros as make
whole blocks, and the length of the message.  A program that works on bytes adds
the byte `0x80`, zero bytes and the bytes of the length.
-/

namespace RiscvVp

namespace Padding

abbrev Byte : Type := BitVec 8

/-! ## Bits of bytes -/

/-- The first bit of a byte is its highest one. -/
def byteBits (byte : Byte) : List Bool :=
  (List.range 8).map fun index => byte.getLsbD (7 - index)

def bits (bytes : List Byte) : List Bool := bytes.flatMap byteBits

/-- A number as bits, the highest first. -/
def numberBits (width number : ℕ) : List Bool :=
  (List.range width).map fun index => number.testBit (width - 1 - index)

@[simp]
theorem length_byteBits (byte : Byte) : (byteBits byte).length = 8 := by
  rw [byteBits, List.length_map, List.length_range]

@[simp]
theorem bits_nil : bits [] = [] :=
  rfl

@[simp]
theorem bits_cons (byte : Byte) (bytes : List Byte) :
    bits (byte :: bytes) = byteBits byte ++ bits bytes :=
  rfl

@[simp]
theorem bits_append (first second : List Byte) :
    bits (first ++ second) = bits first ++ bits second :=
  List.flatMap_append

@[simp]
theorem length_bits (bytes : List Byte) :
    (bits bytes).length = 8 * bytes.length := by
  induction bytes with
  | nil => rfl
  | cons byte bytes inductionHypothesis =>
      rw [bits_cons, List.length_append, length_byteBits, inductionHypothesis,
        List.length_cons]
      omega

theorem byteBits_injective {first second : Byte}
    (same : byteBits first = byteBits second) : first = second := by
  apply BitVec.eq_of_getLsbD_eq
  intro index small
  have bit := congrArg (·[7 - index]?) same
  have inside : 7 - index < 8 := by omega
  have place : 7 - (7 - index) = index := by omega
  simpa [byteBits, inside, place] using bit

/-- Bytes are known by their bits. -/
theorem bits_injective {first second : List Byte}
    (same : bits first = bits second) : first = second := by
  induction first generalizing second with
  | nil =>
      cases second with
      | nil => rfl
      | cons byte bytes =>
          have lengths := congrArg List.length same
          rw [length_bits, length_bits] at lengths
          cases lengths
  | cons byte bytes inductionHypothesis =>
      cases second with
      | nil =>
          have lengths := congrArg List.length same
          rw [length_bits, length_bits] at lengths
          cases lengths
      | cons other others =>
          rw [bits_cons, bits_cons] at same
          obtain ⟨head, tail⟩ := List.append_inj same (by simp)
          rw [byteBits_injective head, inductionHypothesis tail]

theorem bits_replicate_zero (count : ℕ) :
    bits (List.replicate count 0) = List.replicate (8 * count) false := by
  induction count with
  | zero => rfl
  | succ count inductionHypothesis =>
      have one : byteBits 0 = List.replicate 8 false := by decide
      have more : 8 * (count + 1) = 8 + 8 * count := by omega
      rw [List.replicate_succ, bits_cons, inductionHypothesis, one, more,
        List.replicate_append_replicate]

/-- The bytes of a number of whole bytes, the highest first. -/
def numberBytes (count number : ℕ) : List Byte :=
  (List.range count).map fun index =>
    BitVec.ofNat 8 (number >>> (8 * (count - 1 - index)))

@[simp]
theorem length_numberBytes (count number : ℕ) :
    (numberBytes count number).length = count := by
  rw [numberBytes, List.length_map, List.length_range]

theorem numberBytes_succ (count number : ℕ) :
    numberBytes (count + 1) number =
      BitVec.ofNat 8 (number >>> (8 * count)) :: numberBytes count number := by
  rw [numberBytes, List.range_succ_eq_map, List.map_cons, List.map_map,
    numberBytes]
  congr 1
  apply List.map_congr_left
  intro index _
  have place : count + 1 - 1 - (index + 1) = count - 1 - index := by omega
  rw [Function.comp_apply, Nat.succ_eq_add_one, place]

theorem numberBits_add (first second number : ℕ) :
    numberBits (first + second) number =
      numberBits first (number >>> second) ++ numberBits second number := by
  rw [numberBits, List.range_add, List.map_append, List.map_map, numberBits,
    numberBits]
  congr 1
  · apply List.map_congr_left
    intro index member
    have below := List.mem_range.mp member
    have place : second + (first - 1 - index) = first + second - 1 - index := by
      omega
    rw [Nat.testBit_shiftRight, place]
  · apply List.map_congr_left
    intro index member
    have place : first + second - 1 - (first + index) = second - 1 - index := by
      omega
    rw [Function.comp_apply, place]

theorem byteBits_ofNat (number : ℕ) :
    byteBits (BitVec.ofNat 8 number) = numberBits 8 number := by
  rw [byteBits, numberBits]
  apply List.map_congr_left
  intro index member
  have inside : 7 - index < 8 := by omega
  rw [BitVec.getLsbD_ofNat, decide_eq_true inside, Bool.true_and]

/-- The bits of a number's bytes are the number's bits. -/
theorem bits_numberBytes (count number : ℕ) :
    bits (numberBytes count number) = numberBits (8 * count) number := by
  induction count with
  | zero => rfl
  | succ count inductionHypothesis =>
      have more : 8 * (count + 1) = 8 + 8 * count := by omega
      rw [numberBytes_succ, bits_cons, inductionHypothesis, byteBits_ofNat,
        more, numberBits_add]

/-- A number that the field can hold is known by its bytes. -/
theorem numberBytes_injective {count first second : ℕ}
    (firstFits : first < 2 ^ (8 * count)) (secondFits : second < 2 ^ (8 * count))
    (same : numberBytes count first = numberBytes count second) :
    first = second := by
  have bitsSame := congrArg bits same
  rw [bits_numberBytes, bits_numberBytes] at bitsSame
  apply Nat.eq_of_testBit_eq
  intro index
  by_cases inside : index < 8 * count
  · have bit := congrArg (·[8 * count - 1 - index]?) bitsSame
    have listed : 8 * count - 1 - index < 8 * count := by omega
    have place : 8 * count - 1 - (8 * count - 1 - index) = index := by omega
    simpa [numberBits, listed, place] using bit
  · have above : 2 ^ (8 * count) ≤ 2 ^ index :=
      Nat.pow_le_pow_right (by decide) (Nat.le_of_not_lt inside)
    rw [Nat.testBit_lt_two_pow (Nat.lt_of_lt_of_le firstFits above),
      Nat.testBit_lt_two_pow (Nat.lt_of_lt_of_le secondFits above)]

/-! ## The padding -/

/-- How many zeros are added. -/
def fillers (block field length : ℕ) : ℕ :=
  (block - (length + 1 + field) % block) % block

/-- The padded message: its length is written in a field of fixed width. -/
def pad (block field : ℕ) (message : List Bool) : List Bool :=
  message ++ true :: (List.replicate (fillers block field message.length) false ++
    numberBits field message.length)

/-- The bytes that do the same. -/
def padBytes (block field : ℕ) (message : List Byte) : List Byte :=
  message ++ 0x80 :: (List.replicate
    ((fillers (8 * block) (8 * field) (8 * message.length)) / 8) 0 ++
      numberBytes field (8 * message.length))

/-- As a message of bytes and the field end at a byte, so does the padding. -/
theorem fillers_bytes {block : ℕ} (positive : 0 < block) (field length : ℕ) :
    fillers (8 * block) (8 * field) (8 * length) =
      7 + 8 * (fillers (8 * block) (8 * field) (8 * length) / 8) := by
  have below := Nat.mod_lt (length + field) positive
  have sum : 8 * length + 1 + 8 * field = 8 * (length + field) + 1 := by omega
  have unit : (8 * (length + field) + 1) % 8 = 1 := by omega
  have eighth : (8 * (length + field) + 1) / 8 = length + field := by omega
  have remainder : (8 * length + 1 + 8 * field) % (8 * block) =
      1 + 8 * ((length + field) % block) := by
    rw [sum, Nat.mod_mul, unit, eighth]
  rw [fillers, remainder, Nat.mod_eq_of_lt (by omega)]
  omega

theorem bits_padBytes {block : ℕ} (positive : 0 < block) (field : ℕ)
    (message : List Byte) :
    bits (padBytes block field message) =
      pad (8 * block) (8 * field) (bits message) := by
  have one : byteBits 0x80 = true :: List.replicate 7 false := by decide
  have zeros := fillers_bytes positive field message.length
  rw [padBytes, pad, bits_append, bits_cons, bits_append, bits_replicate_zero,
    bits_numberBytes, length_bits, one, List.cons_append, ← List.append_assoc,
    List.replicate_append_replicate, ← zeros]

end Padding

end RiscvVp
