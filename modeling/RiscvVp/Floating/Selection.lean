import RiscvVp.Floating.Order

/-!
# Choosing an operand by one comparison

A minimum or a maximum that asks whether the first operand comes first, and
otherwise takes the second one, has no look at the single operand that is no
number.  It is right about two numbers and about two that are none, and takes
the second operand in between.
-/

namespace RiscvVp

namespace Floating

variable {w p : ℕ} {isNaN : BitVec w → Bool} {canonical : BitVec w}
  {less equal : BitVec w → BitVec w → Bool} {greatest : Bool}
  {first second : BitVec w}

/-- Of two equal operands the negative one comes first. -/
def comesFirst (less equal : BitVec w → BitVec w → Bool)
    (a b : BitVec w) : Bool :=
  less a b || (equal a b && a.msb)

/-- The first operand if it comes first, or, for a maximum, last. -/
def selected (isNaN : BitVec w → Bool) (canonical : BitVec w)
    (less equal : BitVec w → BitVec w → Bool) (greatest : Bool)
    (first second : BitVec w) : BitVec w :=
  if isNaN first && isNaN second then canonical
  else if comesFirst less equal (if greatest then second else first)
      (if greatest then first else second) then first
  else second

theorem selected_of_bothNaN (one : isNaN first = true)
    (other : isNaN second = true) :
    selected isNaN canonical less equal greatest first second =
      canonical := by
  rw [selected, one, other, Bool.and_self, if_pos rfl]

/-- A number is told apart from the other operand by the comparison alone. -/
theorem selected_of_numbers (one : isNaN first = false) :
    selected isNaN canonical less equal greatest first second =
      if comesFirst less equal (if greatest then second else first)
        (if greatest then first else second) then first else second := by
  rw [selected, one, Bool.false_and, if_neg Bool.false_ne_true]

theorem selects_canonical (one : isNaN first = true)
    (other : isNaN second = true) :
    Selects isNaN canonical p greatest first second canonical where
  firstNaN _ number := by simp [other] at number
  secondNaN number := by simp [one] at number
  bothNaN _ _ := rfl
  operand number := by simp [one] at number
  extreme number := by simp [one] at number
  zeros number := by simp [one] at number

section Comparing

variable (compares : Compares isNaN p less equal)

include compares

theorem comesFirst_of_numbers (one : isNaN first = false)
    (other : isNaN second = false) :
    comesFirst less equal first second = true ↔
      number p first < number p second ∨
        (number p first = number p second ∧ first.msb = true) := by
  simp [comesFirst, compares.less, compares.equal, one, other]

/-- Nothing comes before or after what is no number. -/
theorem comesFirst_of_isNaN
    (noNumber : isNaN first = true ∨ isNaN second = true) :
    comesFirst less equal first second = false := by
  apply Bool.eq_false_iff.mpr
  intro before
  rw [comesFirst, Bool.or_eq_true, Bool.and_eq_true, compares.less,
    compares.equal] at before
  rcases before with ⟨one, other, _⟩ | ⟨⟨one, other, _⟩, _⟩ <;>
    simp [one, other] at noNumber

/-- One operand that is no number makes it the second operand. -/
theorem selected_of_oneNaN (different : isNaN first ≠ isNaN second) :
    selected isNaN canonical less equal greatest first second = second := by
  have notBoth : (isNaN first && isNaN second) = false := by
    cases one : isNaN first <;> cases other : isNaN second <;>
      simp [one, other] at different ⊢
  have either : isNaN first = true ∨ isNaN second = true := by
    cases one : isNaN first <;> cases other : isNaN second <;>
      simp [one, other] at different ⊢
  have neither : comesFirst less equal (if greatest then second else first)
      (if greatest then first else second) = false := by
    cases greatest with
    | false => exact comesFirst_of_isNaN compares either
    | true => exact comesFirst_of_isNaN compares either.symm
  rw [selected, notBoth, neither, if_neg Bool.false_ne_true,
    if_neg Bool.false_ne_true]

/-! ## Two numbers -/

theorem selects_of_numbers (one : isNaN first = false)
    (other : isNaN second = false) :
    Selects isNaN canonical p greatest first second
      (selected isNaN canonical less equal greatest first second) where
  firstNaN noNumber := by simp [one] at noNumber
  secondNaN _ noNumber := by simp [other] at noNumber
  bothNaN noNumber := by simp [one] at noNumber
  operand _ _ := by
    rw [selected_of_numbers one]
    generalize comesFirst less equal _ _ = chosen
    cases chosen with
    | true => exact Or.inl rfl
    | false => exact Or.inr rfl
  extreme _ _ := by
    rw [selected_of_numbers one]
    cases greatest with
    | false =>
        have order := comesFirst_of_numbers compares one other
        simp only [Bool.false_eq_true, if_false]
        split <;> grind
    | true =>
        have order := comesFirst_of_numbers compares other one
        simp only [if_true]
        split <;> grind
  zeros _ _ zero alike := by
    have same : number p first = number p second := by
      rw [number_of_isZero p zero, number_of_isZero p alike]
    rw [selected_of_numbers one]
    cases greatest with
    | false =>
        have order := comesFirst_of_numbers compares one other
        cases sign : first.msb <;> simp_all
    | true =>
        have order := comesFirst_of_numbers compares other one
        cases sign : first.msb <;> cases sign' : second.msb <;> simp_all

/-- Two numbers may be exchanged. -/
theorem selected_comm_of_numbers (one : isNaN first = false)
    (other : isNaN second = false) :
    selected isNaN canonical less equal greatest first second =
      selected isNaN canonical less equal greatest second first := by
  rw [selected_of_numbers one,
    selected_of_numbers other]
  have order := comesFirst_of_numbers compares one other
  have reverse := comesFirst_of_numbers compares other one
  by_cases same : number p first = number p second
  · rcases eq_of_number same with equal | ⟨zero, alike⟩
    · rw [equal]
    · by_cases signs : first.msb = second.msb
      · rw [eq_of_magnitude signs (zero.trans alike.symm)]
      · cases greatest <;> grind
  · cases greatest <;> grind

/-! ## Every pair of operands -/

/-- It is right, and the operands may be exchanged, exactly if they are both
numbers or both none. -/
theorem selected_spec_iff :
    (Selects isNaN canonical p greatest first second
        (selected isNaN canonical less equal greatest first second) ∧
      selected isNaN canonical less equal greatest first second =
        selected isNaN canonical less equal greatest second first) ↔
      isNaN first = isNaN second := by
  constructor
  · rintro ⟨_, exchanged⟩
    apply Decidable.byContradiction
    intro different
    rw [selected_of_oneNaN compares different,
      selected_of_oneNaN compares (Ne.symm different)] at exchanged
    exact different (congrArg isNaN exchanged.symm)
  · intro alike
    cases one : isNaN first with
    | false =>
        have other : isNaN second = false := alike ▸ one
        exact ⟨selects_of_numbers compares one other,
          selected_comm_of_numbers compares one other⟩
    | true =>
        have other : isNaN second = true := alike ▸ one
        rw [selected_of_bothNaN one other, selected_of_bothNaN other one]
        exact ⟨selects_canonical one other, rfl⟩

end Comparing

end Floating

end RiscvVp
