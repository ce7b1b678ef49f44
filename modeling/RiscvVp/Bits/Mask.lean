import Mathlib.Algebra.Order.Ring.Nat
import Mathlib.Data.Nat.Bitwise

/-!
# Masks of low bits

What the usual `(1 << bits) - 1` selects, on numbers.
-/

namespace RiscvVp

namespace Mask

def mask (width bits : ℕ) : BitVec width :=
  ((1 <<< bits : ℕ) : BitVec width) - 1

variable {width bits : ℕ}

theorem toNat_mask (within : bits < width) :
    (mask width bits).toNat = 2 ^ bits - 1 := by
  have bound : 2 ^ bits < 2 ^ width :=
    Nat.pow_lt_pow_right Nat.one_lt_two within
  have one : 1 < 2 ^ width := Nat.one_lt_two_pow (by omega)
  have positive : 0 < 2 ^ bits := Nat.two_pow_pos bits
  rw [mask, BitVec.toNat_sub, BitVec.natCast_eq_ofNat, BitVec.toNat_ofNat,
    BitVec.ofNat_eq_ofNat, BitVec.toNat_ofNat, Nat.mod_eq_of_lt one,
    Nat.shiftLeft_eq, Nat.one_mul, Nat.mod_eq_of_lt bound,
    show 2 ^ width - 1 + 2 ^ bits = 2 ^ width + (2 ^ bits - 1) by omega,
    Nat.add_mod_left, Nat.mod_eq_of_lt (by omega)]

theorem getLsbD_mask (within : bits < width) (bit : ℕ) :
    (mask width bits).getLsbD bit =
      decide (bit < bits) := by
  rw [BitVec.getLsbD, toNat_mask within, Nat.testBit_two_pow_sub_one]

/-- Keeping the low bits is a remainder. -/
theorem toNat_and_mask (within : bits < width) (value : BitVec width) :
    (value &&& mask width bits).toNat =
      value.toNat % 2 ^ bits := by
  rw [BitVec.toNat_and, toNat_mask within, Nat.and_two_pow_sub_one_eq_mod]

/-- Clearing them leaves the multiple below. -/
theorem toNat_and_not_mask (within : bits < width) (value : BitVec width) :
    (value &&& ~~~mask width bits).toNat =
      value.toNat / 2 ^ bits * 2 ^ bits := by
  apply Nat.eq_of_testBit_eq
  intro bit
  rw [BitVec.testBit_toNat, BitVec.getLsbD_and, BitVec.getLsbD_not,
    getLsbD_mask within, Nat.testBit_mul_two_pow, Nat.testBit_div_two_pow]
  by_cases low : bit < bits
  · simp [low, Nat.not_le.2 low]
  · have high : bits ≤ bit := Nat.le_of_not_lt low
    rw [Nat.sub_add_cancel high, ← BitVec.getLsbD]
    by_cases inside : bit < width
    · simp [low, high, inside]
    · simp [inside, BitVec.getLsbD_of_ge value bit (Nat.le_of_not_lt inside)]

/-- The bits from a place on are all clear or all set when they agree with
the first of them. -/
theorem uniform_iff (within : bits < width) (nonempty : 0 < bits)
    (value : BitVec width) (place : ℕ) :
    ((value >>> place) &&& mask width bits = 0 ∨
        (value >>> place) &&& mask width bits = mask width bits) ↔
      ∀ bit < bits, value.getLsbD (place + bit) = value.getLsbD place := by
  have selected (bit : ℕ) :
      ((value >>> place) &&& mask width bits).getLsbD bit =
        (value.getLsbD (place + bit) && decide (bit < bits)) := by
    rw [BitVec.getLsbD_and, BitVec.getLsbD_ushiftRight, getLsbD_mask within]
  constructor
  · intro uniform bit below
    have this := selected bit
    have first := selected 0
    rcases uniform with clear | set
    · rw [clear] at this first
      simp_all
    · rw [set, getLsbD_mask within] at this first
      simp_all
  · intro agree
    cases first : value.getLsbD place with
    | false =>
        refine .inl (BitVec.eq_of_getLsbD_eq fun bit _ => ?_)
        rw [selected]
        by_cases below : bit < bits
        · simp [agree bit below, first]
        · simp [below]
    | true =>
        refine .inr (BitVec.eq_of_getLsbD_eq fun bit _ => ?_)
        rw [selected, getLsbD_mask within]
        by_cases below : bit < bits
        · simp [agree bit below, first, below]
        · simp [below]

end Mask

end RiscvVp
