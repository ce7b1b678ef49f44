import Mathlib

/-!
# Mixed radix

A number in positional notation where every place has its own radix.  The places
are listed from the lowest to the highest, and a number is taken apart by division
with remainder, one place after the other.
-/

namespace RiscvVp

namespace Positional

variable {ι : Type} (radix : ι → ℕ)

/-- The number of numbers with digits at the places. -/
def weight (places : List ι) : ℕ := (places.map radix).prod

/-- The number with the given digits. -/
def compose : List ι → (ι → ℕ) → ℕ
  | [], _ => 0
  | place :: places, digits => digits place + radix place * compose places digits

variable {radix}

theorem weight_cons (place : ι) (places : List ι) :
    weight radix (place :: places) = radix place * weight radix places := by
  rw [weight, List.map_cons, List.prod_cons]
  rfl

section Digits

variable [DecidableEq ι] (radix)

/-- The digits of a number; other places keep theirs. -/
def extract : List ι → ℕ → (ι → ℕ) → ι → ℕ
  | [], _, digits => digits
  | place :: places, number, digits =>
      extract places (number / radix place)
        (Function.update digits place (number % radix place))

variable {radix}

theorem extract_of_not_mem {place : ι} {places : List ι}
    (outside : place ∉ places) (number : ℕ) (digits : ι → ℕ) :
    extract radix places number digits place = digits place := by
  induction places generalizing number digits with
  | nil => rfl
  | cons first places inductionHypothesis =>
      rw [List.mem_cons, not_or] at outside
      rw [extract, inductionHypothesis outside.2]
      exact Function.update_of_ne outside.1 _ _

theorem extract_lt {place : ι} {places : List ι}
    (positive : ∀ place ∈ places, 0 < radix place) (member : place ∈ places)
    (number : ℕ) (digits : ι → ℕ) :
    extract radix places number digits place < radix place := by
  induction places generalizing number digits with
  | nil => cases member
  | cons first places inductionHypothesis =>
      have others := fun place member =>
        positive place (List.mem_cons_of_mem first member)
      rw [extract]
      by_cases again : place ∈ places
      · exact inductionHypothesis others again _ _
      · obtain rfl := (List.mem_cons.1 member).resolve_right again
        rw [extract_of_not_mem again, Function.update_self]
        exact Nat.mod_lt _ (positive place List.mem_cons_self)

/-- The digits of a number are those of the number with these digits. -/
theorem compose_extract {places : List ι} (nodup : places.Nodup) (number : ℕ)
    (digits : ι → ℕ) :
    compose radix places (extract radix places number digits) =
      number % weight radix places := by
  induction places generalizing number digits with
  | nil => rw [compose, weight, List.map_nil, List.prod_nil, Nat.mod_one]
  | cons place places inductionHypothesis =>
      obtain ⟨fresh, nodup⟩ := List.nodup_cons.1 nodup
      rw [compose, extract, inductionHypothesis nodup, extract_of_not_mem fresh,
        Function.update_self, weight_cons, Nat.mod_mul]

theorem extract_compose {places : List ι} (nodup : places.Nodup)
    {digits : ι → ℕ} (below : ∀ place ∈ places, digits place < radix place)
    (other : ι → ℕ) {place : ι} (member : place ∈ places) :
    extract radix places (compose radix places digits) other place =
      digits place := by
  induction places generalizing other with
  | nil => cases member
  | cons first places inductionHypothesis =>
      obtain ⟨fresh, nodup⟩ := List.nodup_cons.1 nodup
      have small := below first List.mem_cons_self
      have others := fun place member =>
        below place (List.mem_cons_of_mem first member)
      have low : compose radix (first :: places) digits % radix first =
          digits first := by
        rw [compose, Nat.add_mul_mod_self_left, Nat.mod_eq_of_lt small]
      have high : compose radix (first :: places) digits / radix first =
          compose radix places digits := by
        rw [compose, Nat.add_mul_div_left _ _ (Nat.zero_lt_of_lt small),
          Nat.div_eq_of_lt small, Nat.zero_add]
      rw [extract, low, high]
      rcases List.mem_cons.1 member with rfl | later
      · rw [extract_of_not_mem fresh, Function.update_self]
      · exact inductionHypothesis nodup others _ later

end Digits

theorem compose_lt {places : List ι} {digits : ι → ℕ}
    (below : ∀ place ∈ places, digits place < radix place) :
    compose radix places digits < weight radix places := by
  induction places with
  | nil => exact Nat.one_pos
  | cons place places inductionHypothesis =>
      have first := below place List.mem_cons_self
      have rest := inductionHypothesis fun place member =>
        below place (List.mem_cons_of_mem _ member)
      rw [compose, weight_cons]
      calc digits place + radix place * compose radix places digits
          < radix place + radix place * compose radix places digits :=
            Nat.add_lt_add_right first _
        _ = radix place * (compose radix places digits + 1) := by ring
        _ ≤ radix place * weight radix places := Nat.mul_le_mul_left _ rest

end Positional

end RiscvVp
