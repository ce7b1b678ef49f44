import Mathlib.Data.Int.Notation
import Mathlib.Data.Nat.Notation
import Mathlib.Tactic.Linarith

/-!
# Double-width products

The product of two words fits in a word of twice the width, however their
signs are read.  Its low half is the same in all three readings.
-/

namespace RiscvVp.Bits

variable {width : ℕ}

/-! ## Halves -/

def lowHalf (product : BitVec (width + width)) : BitVec width :=
  product.setWidth width

def highHalf (product : BitVec (width + width)) : BitVec width :=
  product.extractLsb' width width

theorem highHalf_append_lowHalf (product : BitVec (width + width)) :
    highHalf product ++ lowHalf product = product := by
  rw [highHalf, lowHalf,
    BitVec.setWidth_eq_extractLsb' (Nat.le_add_right width width)]
  exact BitVec.extractLsb'_append_extractLsb'

/-! ## Three readings of the operands -/

/-- The product of two signed words. -/
def signedProduct (a b : BitVec width) : BitVec (width + width) :=
  a.signExtend (width + width) * b.signExtend (width + width)

/-- The product of two unsigned words. -/
def unsignedProduct (a b : BitVec width) : BitVec (width + width) :=
  a.setWidth (width + width) * b.setWidth (width + width)

/-- The product of a signed word and an unsigned one. -/
def mixedProduct (a b : BitVec width) : BitVec (width + width) :=
  a.signExtend (width + width) * b.setWidth (width + width)

/-! ### The low half -/

theorem lowHalf_mul (a b : BitVec (width + width)) :
    lowHalf (a * b) = lowHalf a * lowHalf b :=
  BitVec.setWidth_mul a b (Nat.le_add_right width width)

theorem lowHalf_setWidth (a : BitVec width) :
    lowHalf (a.setWidth (width + width)) = a := by
  rw [lowHalf, BitVec.setWidth_setWidth_of_le a
    (Nat.le_add_right width width), BitVec.setWidth_eq]

theorem lowHalf_signExtend (a : BitVec width) :
    lowHalf (a.signExtend (width + width)) = a := by
  apply BitVec.eq_of_getLsbD_eq
  intro index below
  rw [lowHalf, BitVec.getLsbD_setWidth, BitVec.getLsbD_signExtend]
  simp [below]
  omega

theorem lowHalf_signedProduct (a b : BitVec width) :
    lowHalf (signedProduct a b) = a * b := by
  rw [signedProduct, lowHalf_mul, lowHalf_signExtend, lowHalf_signExtend]

theorem lowHalf_unsignedProduct (a b : BitVec width) :
    lowHalf (unsignedProduct a b) = a * b := by
  rw [unsignedProduct, lowHalf_mul, lowHalf_setWidth, lowHalf_setWidth]

theorem lowHalf_mixedProduct (a b : BitVec width) :
    lowHalf (mixedProduct a b) = a * b := by
  rw [mixedProduct, lowHalf_mul, lowHalf_signExtend, lowHalf_setWidth]

theorem highHalf_signedProduct_append (a b : BitVec width) :
    highHalf (signedProduct a b) ++ (a * b) = signedProduct a b := by
  rw [← lowHalf_signedProduct]
  exact highHalf_append_lowHalf _

theorem highHalf_unsignedProduct_append (a b : BitVec width) :
    highHalf (unsignedProduct a b) ++ (a * b) = unsignedProduct a b := by
  rw [← lowHalf_unsignedProduct]
  exact highHalf_append_lowHalf _

theorem highHalf_mixedProduct_append (a b : BitVec width) :
    highHalf (mixedProduct a b) ++ (a * b) = mixedProduct a b := by
  rw [← lowHalf_mixedProduct]
  exact highHalf_append_lowHalf _

/-! ## Exactness -/

/-- A signed word times an integer that the unsigned words bound. -/
theorem toInt_mul_fits (a : BitVec width) {factor : ℤ}
    (least : -(2 ^ width) < factor) (greatest : factor < 2 ^ width) :
    -(2 ^ (width + width) : ℤ) ≤ a.toInt * factor * 2 ∧
      a.toInt * factor * 2 < 2 ^ (width + width) := by
  have below := a.two_mul_toInt_lt
  have above := a.le_two_mul_toInt
  rw [pow_add]
  constructor
  · nlinarith
  · nlinarith

/-- A product at the double width that is a signed word times such an
integer. -/
theorem bmod_toInt_mul (a : BitVec width) {factor : ℤ}
    (least : -(2 ^ width) < factor) (greatest : factor < 2 ^ width) :
    (a.toInt * factor).bmod (2 ^ (width + width)) = a.toInt * factor := by
  have fits := toInt_mul_fits a least greatest
  apply Int.bmod_eq_of_le_mul_two
  · exact_mod_cast fits.1
  · exact_mod_cast fits.2

theorem toInt_signedProduct (a b : BitVec width) :
    (signedProduct a b).toInt = a.toInt * b.toInt := by
  have double (c : BitVec width) :
      (c.signExtend (width + width)).toInt = c.toInt :=
    BitVec.toInt_signExtend_of_le (Nat.le_add_right width width)
  have below := b.two_mul_toInt_lt
  have above := b.le_two_mul_toInt
  have positive : (0 : ℤ) < 2 ^ width := by positivity
  rw [signedProduct, BitVec.toInt_mul, double, double]
  apply bmod_toInt_mul
  · linarith
  · linarith

theorem toInt_mixedProduct (a b : BitVec width) :
    (mixedProduct a b).toInt = a.toInt * b.toNat := by
  have positive : (0 : ℤ) < 2 ^ width := by positivity
  rw [mixedProduct, BitVec.toInt_mul, BitVec.toInt_setWidth,
    BitVec.toInt_signExtend_of_le (Nat.le_add_right width width),
    Int.mul_bmod_bmod]
  apply bmod_toInt_mul
  · linarith [Int.natCast_nonneg b.toNat]
  · exact_mod_cast b.isLt

theorem toNat_unsignedProduct (a b : BitVec width) :
    (unsignedProduct a b).toNat = a.toNat * b.toNat := by
  have fits : a.toNat * b.toNat < 2 ^ (width + width) := by
    rw [Nat.pow_add]
    exact Nat.mul_lt_mul'' a.isLt b.isLt
  have double (c : BitVec width) :
      (c.setWidth (width + width)).toNat = c.toNat :=
    BitVec.toNat_setWidth_of_le (Nat.le_add_right width width)
  rw [unsignedProduct, BitVec.toNat_mul, double, double, Nat.mod_eq_of_lt fits]

end RiscvVp.Bits
