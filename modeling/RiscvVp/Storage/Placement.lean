import Mathlib.Data.List.Basic

/-!
# Blocks in a store

A store gives a value to every index.  Blocks that do not overlap can be written
in any order: afterwards each index of a block holds what the block has there,
and every other index what it held before.
-/

namespace RiscvVp

namespace Storage

universe u

variable {β : Type u} {store contents : ℕ → β} {start length index : ℕ}

/-- `length` entries from `start` on are replaced. -/
def overwrite (store : ℕ → β) (start length : ℕ) (contents : ℕ → β) : ℕ → β :=
  fun index =>
    if start ≤ index ∧ index < start + length then contents (index - start)
    else store index

@[simp]
theorem overwrite_inside (inside : index < length) :
    overwrite store start length contents (start + index) = contents index := by
  rw [overwrite, if_pos ⟨Nat.le_add_right _ _, by omega⟩, Nat.add_sub_cancel_left]

theorem overwrite_outside (outside : index < start ∨ start + length ≤ index) :
    overwrite store start length contents index = store index := by
  rw [overwrite, if_neg]
  omega

@[simp]
theorem overwrite_zero (store contents : ℕ → β) (start : ℕ) :
    overwrite store start 0 contents = store := by
  funext index
  exact overwrite_outside (by omega)

/-- Only the contents inside the range matter. -/
theorem overwrite_congr {other : ℕ → β}
    (same : ∀ index < length, contents index = other index) :
    overwrite store start length contents = overwrite store start length other := by
  funext index
  rw [overwrite, overwrite]
  split
  next inside => rw [same (index - start) (by omega)]
  next => rfl

/-- Two adjacent writes are one. -/
theorem overwrite_adjacent (store first second : ℕ → β) (start m n : ℕ) :
    overwrite (overwrite store start m first) (start + m) n second =
      overwrite store start (m + n) fun index =>
        if index < m then first index else second (index - m) := by
  funext index
  rcases Nat.lt_or_ge index start with below | above
  · rw [overwrite_outside (by omega), overwrite_outside (by omega),
      overwrite_outside (by omega)]
  obtain ⟨distance, rfl⟩ := Nat.exists_eq_add_of_le above
  rcases Nat.lt_or_ge distance m with inFirst | beyond
  · rw [overwrite_outside (by omega), overwrite_inside inFirst,
      overwrite_inside (by omega), if_pos inFirst]
  obtain ⟨further, rfl⟩ := Nat.exists_eq_add_of_le beyond
  rcases Nat.lt_or_ge further n with inSecond | outside
  · rw [← Nat.add_assoc, overwrite_inside inSecond, Nat.add_assoc,
      overwrite_inside (by omega), if_neg (by omega), Nat.add_sub_cancel_left]
  · rw [overwrite_outside (by omega), overwrite_outside (by omega),
      overwrite_outside (by omega)]

/-- Some adjacent indices and what they are to hold. -/
structure Block (β : Type u) where
  start : ℕ
  length : ℕ
  contents : ℕ → β

namespace Block

def Covers (block : Block β) (index : ℕ) : Prop :=
  block.start ≤ index ∧ index < block.start + block.length

/-- One of the blocks ends before the other begins. -/
def Apart (left right : Block β) : Prop :=
  left.start + left.length ≤ right.start ∨
    right.start + right.length ≤ left.start

theorem Apart.not_covers {left right : Block β} (apart : left.Apart right)
    (inside : index < left.length) : ¬ right.Covers (left.start + index) := by
  rintro ⟨above, below⟩
  rcases apart with before | after
  · omega
  · omega

end Block

/-- The blocks are written one after the other. -/
def place (store : ℕ → β) (blocks : List (Block β)) : ℕ → β :=
  blocks.foldl
    (fun store block =>
      overwrite store block.start block.length block.contents)
    store

theorem place_cons (block : Block β) (blocks : List (Block β)) :
    place store (block :: blocks) =
      place (overwrite store block.start block.length block.contents) blocks :=
  rfl

theorem place_outside {blocks : List (Block β)}
    (outside : ∀ block ∈ blocks, ¬ block.Covers index) :
    place store blocks index = store index := by
  induction blocks generalizing store with
  | nil => rfl
  | cons block rest inductionHypothesis =>
      rw [place_cons, inductionHypothesis fun other member =>
        outside other (List.mem_cons_of_mem _ member)]
      apply overwrite_outside
      have uncovered := outside block List.mem_cons_self
      rw [Block.Covers] at uncovered
      omega

theorem place_inside {blocks : List (Block β)} {block : Block β}
    (apart : blocks.Pairwise Block.Apart) (member : block ∈ blocks)
    (inside : index < block.length) :
    place store blocks (block.start + index) = block.contents index := by
  induction blocks generalizing store with
  | nil => cases member
  | cons first rest inductionHypothesis =>
      obtain ⟨firstApart, restApart⟩ := List.pairwise_cons.1 apart
      rw [place_cons]
      rcases List.mem_cons.1 member with rfl | later
      · rw [place_outside fun other otherMember =>
          (firstApart other otherMember).not_covers inside]
        exact overwrite_inside inside
      · exact inductionHypothesis restApart later

end Storage

end RiscvVp
