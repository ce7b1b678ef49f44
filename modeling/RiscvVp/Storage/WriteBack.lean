import RiscvVp.Storage.Placement

/-!
# A buffered stretch of a store

A buffer holds some adjacent entries of a store, so that they can be read and
changed without touching the store.  Changed entries are written back when the
buffer moves on or is given up.  Seen from outside there is one store: the one
with the buffered entries put in place.
-/

namespace RiscvVp

namespace Storage

universe u

variable {β : Type u}

/-! ## Overwriting in parts -/

section Overwrite

variable {store contents : ℕ → β} {start length : ℕ}

/-- What a store holds already changes nothing. -/
theorem overwrite_self
    (same : ∀ index < length, contents index = store (start + index)) :
    overwrite store start length contents = store := by
  funext index
  rw [overwrite]
  split
  next inside =>
    rw [same _ (by omega), Nat.add_sub_cancel' inside.1]
  next => rfl

/-- A change of a part of what is written is a later write to that part. -/
theorem overwrite_part (source : ℕ → β) {position count : ℕ}
    (inside : position + count ≤ length) :
    overwrite store start length (overwrite contents position count source) =
      overwrite (overwrite store start length contents) (start + position)
        count source := by
  funext index
  rcases Nat.lt_or_ge index start with below | above
  · rw [overwrite_outside (by omega), overwrite_outside (by omega),
      overwrite_outside (by omega)]
  obtain ⟨distance, rfl⟩ := Nat.exists_eq_add_of_le above
  rcases Nat.lt_or_ge distance length with within | beyond
  · rw [overwrite_inside within]
    rcases Nat.lt_or_ge distance position with before | onward
    · rw [overwrite_outside (by omega), overwrite_outside (by omega),
        overwrite_inside within]
    obtain ⟨further, rfl⟩ := Nat.exists_eq_add_of_le onward
    rcases Nat.lt_or_ge further count with inPart | after
    · rw [overwrite_inside inPart, ← Nat.add_assoc, overwrite_inside inPart]
    · rw [overwrite_outside (by omega), overwrite_outside (by omega),
        overwrite_inside within]
  · rw [overwrite_outside (by omega), overwrite_outside (by omega),
      overwrite_outside (by omega)]

end Overwrite

/-! ## The buffer -/

structure Buffered (β : Type u) where
  store : ℕ → β
  start : ℕ
  contents : ℕ → β
  dirty : Bool
  active : Bool

namespace Buffered

variable (width : ℕ) (buffered : Buffered β)

/-- The store with the buffered entries in place. -/
def view : ℕ → β :=
  if buffered.active then
    overwrite buffered.store buffered.start width buffered.contents
  else buffered.store

/-- An unchanged buffer holds what the store holds. -/
def Coherent : Prop :=
  buffered.active = true → buffered.dirty = false → ∀ index < width,
    buffered.contents index = buffered.store (buffered.start + index)

def commit : Buffered β :=
  { buffered with
    store := overwrite buffered.store buffered.start width buffered.contents
    dirty := false }

def load (start : ℕ) : Buffered β :=
  { buffered with
    start := start
    contents := overwrite buffered.contents 0 width fun index =>
      buffered.store (start + index)
    dirty := false
    active := true }

/-- Move to another stretch, unless the buffer is there already. -/
def move (start : ℕ) : Buffered β :=
  if start ≠ buffered.start ∨ buffered.active = false then
    if buffered.dirty = true ∧ buffered.active = true then
      (buffered.commit width).load width start
    else buffered.load width start
  else buffered

/-- Change some of the buffered entries. -/
def modify (position count : ℕ) (source : ℕ → β) : Buffered β :=
  { buffered with
    contents := overwrite buffered.contents position count source
    dirty := true }

/-- Give the buffer up. -/
def release : Buffered β :=
  if buffered.active = true ∧ buffered.dirty = true then
    { buffered.commit width with active := false }
  else { buffered with active := false }

variable {width buffered}

/-- Where the buffer is, the view is the buffer. -/
theorem view_start (active : buffered.active = true) {index : ℕ}
    (inside : index < width) :
    buffered.view width (buffered.start + index) = buffered.contents index := by
  rw [view, if_pos active, overwrite_inside inside]

/-- A coherent buffer without changes adds nothing to the store. -/
theorem view_eq_store (coherent : buffered.Coherent width)
    (unchanged : ¬ (buffered.active = true ∧ buffered.dirty = true)) :
    buffered.view width = buffered.store := by
  unfold view
  split
  next active =>
    have clean : buffered.dirty = false := by simpa [active] using unchanged
    exact overwrite_self (coherent active clean)
  next => rfl

theorem coherent_load (start : ℕ) :
    (buffered.load width start).Coherent width := by
  intro _ _ index inside
  have loaded : overwrite buffered.contents 0 width
      (fun index => buffered.store (start + index)) (0 + index) =
        buffered.store (start + index) :=
    overwrite_inside inside
  rwa [Nat.zero_add] at loaded

theorem view_load (start : ℕ) :
    (buffered.load width start).view width = buffered.store := by
  rw [view, if_pos (by rfl)]
  exact overwrite_self (coherent_load start rfl rfl)

theorem active_move (start : ℕ) :
    (buffered.move width start).active = true := by
  unfold move
  split
  · split <;> rfl
  next stays => simpa using (not_or.1 stays).2

theorem coherent_move (coherent : buffered.Coherent width) (start : ℕ) :
    (buffered.move width start).Coherent width := by
  unfold move
  split
  · split
    · exact coherent_load start
    · exact coherent_load start
  · exact coherent

/-- Moving the buffer is not seen. -/
theorem view_move (coherent : buffered.Coherent width) (start : ℕ) :
    (buffered.move width start).view width = buffered.view width := by
  unfold move
  split
  · split
    next changed =>
      rw [view_load, view, if_pos changed.2]
      rfl
    next unchanged =>
      rw [view_load, view_eq_store coherent fun changed => unchanged changed.symm]
  · rfl

theorem coherent_modify (position count : ℕ) (source : ℕ → β) :
    (buffered.modify position count source).Coherent width :=
  fun _ clean => nomatch clean

/-- A change of the buffer is a change of what is seen. -/
theorem view_modify (active : buffered.active = true) {position count : ℕ}
    (inside : position + count ≤ width) (source : ℕ → β) :
    (buffered.modify position count source).view width =
      overwrite (buffered.view width) (buffered.start + position) count
        source := by
  rw [view, view, if_pos active, if_pos (by exact active)]
  exact overwrite_part source inside

/-- What is left after the buffer is what was seen with it. -/
theorem store_release (coherent : buffered.Coherent width) :
    (buffered.release width).store = buffered.view width := by
  unfold release
  split
  next changed =>
    rw [view, if_pos changed.1]
    rfl
  next unchanged => exact (view_eq_store coherent unchanged).symm

end Buffered

end Storage

end RiscvVp
