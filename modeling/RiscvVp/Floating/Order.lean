import Mathlib

/-!
# The order of binary floating-point words

A word holds a sign, a biased exponent and a fraction of `p` bits.  The number
that it stands for is counted in units of half the least positive one, so that
it is an integer; the infinities stand for the powers of two that follow the
greatest finite numbers.  Words that are no numbers are not ordered, and which
they are is up to the format.
-/

namespace RiscvVp

namespace Floating

/-! ## Magnitudes -/

/-- The number of a positive word: below the least normal number the exponent
counts as one and there is no leading bit. -/
def scaled (p magnitude : ℕ) : ℕ :=
  if magnitude / 2 ^ p = 0 then 2 * (magnitude % 2 ^ p)
  else (2 ^ p + magnitude % 2 ^ p) * 2 ^ (magnitude / 2 ^ p)

theorem scaled_lt (p magnitude : ℕ) :
    scaled p magnitude < 2 ^ p * 2 ^ (magnitude / 2 ^ p + 1) := by
  have fraction : magnitude % 2 ^ p < 2 ^ p :=
    Nat.mod_lt _ (Nat.two_pow_pos p)
  rw [scaled]
  split
  next least =>
    rw [least]
    omega
  next =>
    have power : 0 < 2 ^ (magnitude / 2 ^ p) := Nat.two_pow_pos _
    calc (2 ^ p + magnitude % 2 ^ p) * 2 ^ (magnitude / 2 ^ p)
        < (2 ^ p + 2 ^ p) * 2 ^ (magnitude / 2 ^ p) :=
          Nat.mul_lt_mul_of_pos_right (by omega) power
      _ = 2 ^ p * 2 ^ (magnitude / 2 ^ p + 1) := by
          rw [Nat.pow_succ, ← Nat.mul_two, Nat.mul_assoc,
            Nat.mul_comm 2 (2 ^ (magnitude / 2 ^ p))]

theorem le_scaled {p magnitude : ℕ} (normal : 0 < magnitude / 2 ^ p) :
    2 ^ p * 2 ^ (magnitude / 2 ^ p) ≤ scaled p magnitude := by
  rw [scaled, if_neg (Nat.pos_iff_ne_zero.mp normal)]
  exact Nat.mul_le_mul_right _ (Nat.le_add_right _ _)

/-- The greater word stands for the greater number. -/
theorem scaled_strictMono {p first second : ℕ} (less : first < second) :
    scaled p first < scaled p second := by
  have order : first / 2 ^ p ≤ second / 2 ^ p :=
    Nat.div_le_div_right (Nat.le_of_lt less)
  rcases Nat.lt_or_eq_of_le order with binades | same
  · calc scaled p first
        < 2 ^ p * 2 ^ (first / 2 ^ p + 1) := scaled_lt p first
      _ ≤ 2 ^ p * 2 ^ (second / 2 ^ p) :=
          Nat.mul_le_mul_left _ (Nat.pow_le_pow_right (by decide) binades)
      _ ≤ scaled p second := le_scaled (Nat.zero_lt_of_lt binades)
  · have fractions : first % 2 ^ p < second % 2 ^ p := by
      have one := Nat.div_add_mod first (2 ^ p)
      have two := Nat.div_add_mod second (2 ^ p)
      rw [same] at one
      omega
    rw [scaled, scaled, same]
    split
    next => omega
    next =>
      exact Nat.mul_lt_mul_of_pos_right (by omega) (Nat.two_pow_pos _)

theorem scaled_injective {p first second : ℕ}
    (same : scaled p first = scaled p second) : first = second := by
  rcases Nat.lt_trichotomy first second with less | equal | greater
  · exact absurd same (Nat.ne_of_lt (scaled_strictMono less))
  · exact equal
  · exact absurd same.symm (Nat.ne_of_lt (scaled_strictMono greater))

theorem scaled_zero (p : ℕ) : scaled p 0 = 0 := by
  simp [scaled]

/-! ## Words -/

variable {w : ℕ}

/-- The word without its sign. -/
def magnitude (word : BitVec w) : ℕ := word.toNat % 2 ^ (w - 1)

/-- The number that a word stands for, in the format with `p` fraction bits. -/
def number (p : ℕ) (word : BitVec w) : ℤ :=
  if word.msb then -(scaled p (magnitude word) : ℤ)
  else (scaled p (magnitude word) : ℤ)

/-- A zero of either sign. -/
def IsZero (word : BitVec w) : Prop := magnitude word = 0

theorem toNat_eq_magnitude (word : BitVec w) :
    word.toNat = magnitude word + if word.msb then 2 ^ (w - 1) else 0 := by
  have bound := word.isLt
  rw [magnitude]
  cases w with
  | zero =>
      simp [BitVec.of_length_zero]
  | succ width =>
      have split := Nat.div_add_mod word.toNat (2 ^ width)
      have power : 2 ^ (width + 1) = 2 * 2 ^ width := Nat.pow_succ'
      by_cases sign : word.msb = true
      · have upper := BitVec.msb_eq_true_iff_two_mul_ge.mp sign
        have one : word.toNat / 2 ^ width = 1 := by
          apply Nat.div_eq_of_lt_le <;> omega
        rw [one] at split
        simp only [Nat.add_sub_cancel, sign, if_true]
        omega
      · have lower := BitVec.msb_eq_false_iff_two_mul_lt.mp
          (Bool.eq_false_iff.mpr sign)
        have none : word.toNat < 2 ^ width := by omega
        simp [sign, Nat.mod_eq_of_lt none]

/-- A sign and a magnitude make a word. -/
theorem eq_of_magnitude {first second : BitVec w}
    (signs : first.msb = second.msb)
    (magnitudes : magnitude first = magnitude second) : first = second := by
  apply BitVec.eq_of_toNat_eq
  have one := toNat_eq_magnitude first
  have other := toNat_eq_magnitude second
  rw [one, other, signs, magnitudes]

/-- Words of one number are the same, unless both are zeros. -/
theorem eq_of_number {p : ℕ} {first second : BitVec w}
    (same : number p first = number p second) :
    first = second ∨ (IsZero first ∧ IsZero second) := by
  have zero := scaled_zero p
  rw [number, number] at same
  by_cases signs : first.msb = second.msb
  · left
    apply eq_of_magnitude signs
    apply scaled_injective (p := p)
    rw [signs] at same
    split at same <;> omega
  · right
    have both : scaled p (magnitude first) = 0 ∧
        scaled p (magnitude second) = 0 := by
      cases one : first.msb <;> cases other : second.msb <;>
        simp only [one, other, if_true] at same signs <;> grind
    exact ⟨scaled_injective (both.1.trans zero.symm),
      scaled_injective (both.2.trans zero.symm)⟩

theorem number_of_isZero (p : ℕ) {word : BitVec w} (zero : IsZero word) :
    number p word = 0 := by
  rw [IsZero] at zero
  rw [number, zero, scaled_zero]
  simp

/-! ## The smaller and the greater one -/

/-- What the smaller of two operands is, or the greater one: a number where
there is one, and of two zeros the one whose sign makes it so. -/
structure Selects (isNaN : BitVec w → Bool) (canonical : BitVec w) (p : ℕ)
    (greatest : Bool) (first second result : BitVec w) : Prop where
  firstNaN : isNaN first = true → isNaN second = false → result = second
  secondNaN : isNaN first = false → isNaN second = true → result = first
  bothNaN : isNaN first = true → isNaN second = true → result = canonical
  operand : isNaN first = false → isNaN second = false →
    result = first ∨ result = second
  extreme : isNaN first = false → isNaN second = false →
    if greatest then
      number p first ≤ number p result ∧ number p second ≤ number p result
    else number p result ≤ number p first ∧ number p result ≤ number p second
  zeros : isNaN first = false → isNaN second = false →
    IsZero first → IsZero second →
    result.msb = if greatest then first.msb && second.msb
      else first.msb || second.msb

/-- The comparisons are false of what is no number, and otherwise compare the
numbers. -/
structure Compares (isNaN : BitVec w → Bool) (p : ℕ)
    (less equal : BitVec w → BitVec w → Bool) : Prop where
  less : ∀ first second, less first second = true ↔
    isNaN first = false ∧ isNaN second = false ∧
      number p first < number p second
  equal : ∀ first second, equal first second = true ↔
    isNaN first = false ∧ isNaN second = false ∧
      number p first = number p second

namespace Compares

variable {isNaN : BitVec w → Bool} {p : ℕ}

/-- The two comparisons are determined. -/
theorem unique {less equal less' equal' : BitVec w → BitVec w → Bool}
    (compares : Compares isNaN p less equal)
    (also : Compares isNaN p less' equal') :
    less = less' ∧ equal = equal' := by
  constructor
  · funext first second
    rw [Bool.eq_iff_iff, compares.less, also.less]
  · funext first second
    rw [Bool.eq_iff_iff, compares.equal, also.equal]

end Compares

/-- The comparisons, computed. -/
def lessThan (isNaN : BitVec w → Bool) (p : ℕ)
    (first second : BitVec w) : Bool :=
  !isNaN first && !isNaN second && number p first < number p second

def equalTo (isNaN : BitVec w → Bool) (p : ℕ)
    (first second : BitVec w) : Bool :=
  !isNaN first && !isNaN second && number p first == number p second

theorem compares_computed (isNaN : BitVec w → Bool) (p : ℕ) :
    Compares isNaN p (lessThan isNaN p) (equalTo isNaN p) where
  less first second := by
    simp [lessThan, and_assoc]
  equal first second := by
    simp [equalTo, and_assoc]

end Floating

end RiscvVp
