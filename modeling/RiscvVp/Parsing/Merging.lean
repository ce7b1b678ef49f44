import Mathlib.Data.List.Chain

/-!
# Buffers that merge what is pushed

A decoder without a state of its own keeps what it has read in a buffer and
merges the next symbol with the last one, where the two belong together.  It
cannot tell a symbol that it has merged from one that it has read, so that it
reproduces exactly the words in which no two neighbours belong together.
-/

namespace RiscvVp

namespace Parsing

namespace Merging

variable {α : Type} (merge : α → α → Option α)

/-- A symbol is pushed, or merged with the last one. -/
def push (stored : List α) (next : α) : List α :=
  match stored.getLast?.bind (merge · next) with
  | some merged => stored.dropLast ++ [merged]
  | none => stored ++ [next]

/-- Two neighbours do not belong together. -/
def Apart (first second : α) : Prop :=
  merge first second = none

variable {merge}

theorem push_of_merge {stored : List α} {last next merged : α}
    (merges : merge last next = some merged) :
    push merge (stored ++ [last]) next = stored ++ [merged] := by
  simp [push, merges]

theorem push_of_none {stored : List α} {next : α}
    (apart : stored.getLast?.bind (merge · next) = none) :
    push merge stored next = stored ++ [next] := by
  simp only [push, apart]

theorem push_ne_nil (stored : List α) (next : α) :
    push merge stored next ≠ [] := by
  unfold push
  split <;> simp

theorem length_push_le (merge : α → α → Option α) (stored : List α)
    (next : α) :
    (push merge stored next).length ≤ stored.length + 1 := by
  unfold push
  split <;> simp

theorem length_push_of_some {stored : List α} {next merged : α}
    (merges : stored.getLast?.bind (merge · next) = some merged) :
    (push merge stored next).length = stored.length := by
  have nonempty : stored ≠ [] := by
    intro empty
    simp [empty] at merges
  have positive := List.length_pos_iff.mpr nonempty
  simp only [push, merges, List.length_append, List.length_dropLast,
    List.length_singleton]
  omega

theorem length_foldl_push_le (merge : α → α → Option α)
    (word stored : List α) :
    (word.foldl (push merge) stored).length ≤ stored.length + word.length := by
  induction word generalizing stored with
  | nil => exact le_rfl
  | cons next word inductionHypothesis =>
      have pushed := length_push_le merge stored next
      have rest := inductionHypothesis (push merge stored next)
      simp only [List.foldl_cons, List.length_cons]
      omega

theorem foldl_push_ne_nil {word : List α} (nonempty : word ≠ [])
    (stored : List α) : word.foldl (push merge) stored ≠ [] := by
  induction word generalizing stored with
  | nil => exact absurd rfl nonempty
  | cons next word inductionHypothesis =>
      cases word with
      | nil => exact push_ne_nil stored next
      | cons second word =>
          exact inductionHypothesis (List.cons_ne_nil _ _) _

/-- A word is pushed as it is if and only if its neighbours are apart, also
from the last symbol that is stored. -/
theorem foldl_push_eq_append_iff (word stored : List α) :
    word.foldl (push merge) stored = stored ++ word ↔
      (stored.getLast?.toList ++ word).IsChain (Apart merge) := by
  induction word generalizing stored with
  | nil =>
      cases stored.getLast? <;> simp
  | cons next word inductionHypothesis =>
      rw [List.foldl_cons]
      cases merges : stored.getLast?.bind (merge · next) with
      | none =>
          have tail := inductionHypothesis (stored ++ [next])
          rw [push_of_none merges, List.append_cons stored next word, tail]
          cases last : stored.getLast? with
          | none => simp
          | some symbol =>
              have apart : merge symbol next = none := by
                simpa [last] using merges
              simp [Apart, apart]
      | some merged =>
          -- a merge loses a symbol that no later push brings back
          have shorter := length_foldl_push_le merge word
            (push merge stored next)
          rw [length_push_of_some merges] at shorter
          apply iff_of_false
          · intro same
            rw [same] at shorter
            simp only [List.length_append, List.length_cons] at shorter
            omega
          · cases last : stored.getLast? with
            | none => simp [last] at merges
            | some symbol =>
                have joined : merge symbol next = some merged := by
                  simpa [last] using merges
                simp [Apart, joined]

theorem foldl_push_nil_iff (word : List α) :
    word.foldl (push merge) [] = word ↔ word.IsChain (Apart merge) :=
  foldl_push_eq_append_iff word []

end Merging

end Parsing

end RiscvVp
