import Mathlib.Data.Int.Notation
import Mathlib.Data.Nat.Notation

/-!
# Divisions of the host

The quotient and the remainder of the host's own integers are undefined for a
zero divisor and, where the operands are signed, for the least number divided
by `-1`.  An instruction set gives these divisions a result of its own:
`SignedDivision` and `UnsignedDivision` say which.
-/

namespace RiscvVp.Bits

variable {width : ℕ}

/-! ## The host -/

/-- The quotient of two numbers does not fit. -/
def Overflows (a b : BitVec width) : Prop :=
  a = BitVec.intMin width ∧ b = -1

instance (a b : BitVec width) : Decidable (Overflows a b) :=
  inferInstanceAs (Decidable (_ ∧ _))

/-- `a / b` of signed numbers -/
def hostDiv (a b : BitVec width) : Option (BitVec width) :=
  if b = 0 ∨ Overflows a b then none else some (a.sdiv b)

/-- `a % b` of signed numbers -/
def hostRem (a b : BitVec width) : Option (BitVec width) :=
  if b = 0 ∨ Overflows a b then none else some (a.srem b)

/-- `a / b` of unsigned numbers -/
def hostDivu (a b : BitVec width) : Option (BitVec width) :=
  if b = 0 then none else some (a / b)

/-- `a % b` of unsigned numbers -/
def hostRemu (a b : BitVec width) : Option (BitVec width) :=
  if b = 0 then none else some (a % b)

/-! ## The instruction set -/

/-- A division of integers that rounds towards zero. -/
structure Divides (a b quotient remainder : ℤ) : Prop where
  equation : a = b * quotient + remainder
  magnitude : remainder.natAbs < b.natAbs
  /-- the remainder has the sign of the dividend -/
  sign : remainder = 0 ∨ (remainder < 0 ↔ a < 0)

/-- What the instruction set says of two signed words. -/
structure SignedDivision (a b quotient remainder : BitVec width) : Prop where
  byZero : b = 0 → quotient = -1 ∧ remainder = a
  overflow : Overflows a b → quotient = BitVec.intMin width ∧ remainder = 0
  exact : b ≠ 0 → ¬ Overflows a b →
    Divides a.toInt b.toInt quotient.toInt remainder.toInt

/-- What the instruction set says of two unsigned words. -/
structure UnsignedDivision (a b quotient remainder : BitVec width) :
    Prop where
  byZero : b = 0 → quotient = -1 ∧ remainder = a
  exact : b ≠ 0 → Divides a.toNat b.toNat quotient.toNat remainder.toNat

theorem divides_tdiv (a : ℤ) {b : ℤ} (nonzero : b ≠ 0) :
    Divides a b (a.tdiv b) (a.tmod b) where
  equation := (Int.mul_tdiv_add_tmod a b).symm
  magnitude := by
    rw [Int.natAbs_tmod]
    exact Nat.mod_lt _ (Int.natAbs_pos.2 nonzero)
  sign := by
    rcases Int.le_total 0 a with positive | negative
    · have remains := Int.tmod_nonneg b positive
      omega
    · have remains := Int.tmod_nonneg b (Int.neg_nonneg_of_nonpos negative)
      rw [Int.neg_tmod] at remains
      by_cases zero : a = 0
      · subst zero
        exact .inl (Int.zero_tmod b)
      · omega

/-! ## Quotients and remainders of all operands -/

def signedQuotient (a b : BitVec width) : BitVec width :=
  if b = 0 then -1 else if Overflows a b then a else a.sdiv b

def signedRemainder (a b : BitVec width) : BitVec width :=
  if b = 0 then a else if Overflows a b then 0 else a.srem b

def unsignedQuotient (a b : BitVec width) : BitVec width :=
  if b = 0 then -1 else a / b

def unsignedRemainder (a b : BitVec width) : BitVec width :=
  if b = 0 then a else a % b

theorem signedDivision (a b : BitVec width) :
    SignedDivision a b (signedQuotient a b) (signedRemainder a b) where
  byZero zero := ⟨if_pos zero, if_pos zero⟩
  overflow overflows := by
    cases width with
    | zero => exact ⟨Subsingleton.elim _ _, Subsingleton.elim _ _⟩
    | succ width =>
        have nonzero : b ≠ 0 := by
          rw [overflows.2]
          simp
        rw [signedQuotient, signedRemainder, if_neg nonzero, if_neg nonzero,
          if_pos overflows, if_pos overflows]
        exact ⟨overflows.1, rfl⟩
  exact nonzero fits := by
    have divisor : b.toInt ≠ 0 := by
      intro zero
      exact nonzero (BitVec.eq_of_toInt_eq (zero.trans BitVec.toInt_zero.symm))
    have numbers : a ≠ BitVec.intMin width ∨ b ≠ -1 :=
      Decidable.not_and_iff_not_or_not.1 fits
    rw [signedQuotient, signedRemainder, if_neg nonzero, if_neg nonzero,
      if_neg fits, if_neg fits, BitVec.toInt_srem,
      BitVec.toInt_sdiv_of_ne_or_ne a b numbers]
    exact divides_tdiv a.toInt divisor

theorem unsignedDivision (a b : BitVec width) :
    UnsignedDivision a b (unsignedQuotient a b) (unsignedRemainder a b) where
  byZero zero := ⟨if_pos zero, if_pos zero⟩
  exact nonzero := by
    have divisor : (b.toNat : ℤ) ≠ 0 := by
      intro zero
      exact nonzero (BitVec.eq_of_toNat_eq (Int.natCast_eq_zero.1 zero))
    rw [unsignedQuotient, unsignedRemainder, if_neg nonzero, if_neg nonzero,
      BitVec.toNat_udiv, BitVec.toNat_umod]
    exact divides_tdiv a.toNat divisor

/-! ## The host, with the special cases apart -/

theorem guarded_hostDiv (a b : BitVec width) :
    (if b = 0 then some (-1) else if Overflows a b then some a
      else hostDiv a b) = some (signedQuotient a b) := by
  rw [signedQuotient, hostDiv]
  split
  · rfl
  · next nonzero =>
    split
    · rfl
    · next fits => exact if_neg (not_or_intro nonzero fits)

theorem guarded_hostRem (a b : BitVec width) :
    (if b = 0 then some a else if Overflows a b then some 0
      else hostRem a b) = some (signedRemainder a b) := by
  rw [signedRemainder, hostRem]
  split
  · rfl
  · next nonzero =>
    split
    · rfl
    · next fits => exact if_neg (not_or_intro nonzero fits)

theorem guarded_hostDivu (a b : BitVec width) :
    (if b = 0 then some (-1) else hostDivu a b) =
      some (unsignedQuotient a b) := by
  rw [unsignedQuotient, hostDivu]
  split <;> rfl

theorem guarded_hostRemu (a b : BitVec width) :
    (if b = 0 then some a else hostRemu a b) =
      some (unsignedRemainder a b) := by
  rw [unsignedRemainder, hostRemu]
  split <;> rfl

end RiscvVp.Bits
