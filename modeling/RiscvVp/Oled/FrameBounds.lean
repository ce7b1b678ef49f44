import RiscvVp.Device.Trace
import RiscvVp.Oled.Sh1106

/-!
# Stores to the frame

A data byte is stored where the page and the column point to, and the guards of
`write` let both of them be one too large.
-/

namespace RiscvVp

namespace Ss1106

open Trace

/-- The dimensions of the frame. -/
def InFrame (page column : Byte) : Prop :=
  page.toNat < height / 8 ∧ column.toNat < width

instance (page column : Byte) : Decidable (InFrame page column) :=
  inferInstanceAs (Decidable (_ ∧ _))

/-- In the frame, every byte has an address of its own. -/
theorem address_injective {page column otherPage otherColumn : Byte}
    (inside : InFrame page column) (other : InFrame otherPage otherColumn)
    (same : address page column = address otherPage otherColumn) :
    page = otherPage ∧ column = otherColumn := by
  have columns := inside.2
  have otherColumns := other.2
  unfold address at same
  unfold width at same columns otherColumns
  exact ⟨BitVec.eq_of_toNat_eq (by omega), BitVec.eq_of_toNat_eq (by omega)⟩

/-- A byte that comes over SPI, under a level of the DC pin. -/
structure Transfer where
  dc : Bool
  byte : Byte

namespace Display

def step (display : Display) (transfer : Transfer) : Display :=
  (display.write transfer.dc transfer.byte).2

def Steps (display : Display) (transfer : Transfer) (later : Display) : Prop :=
  later = display.step transfer

/-- A data byte for which the guards let an index pass that is one too large. -/
def PastEdge (display : Display) (transfer : Transfer) : Prop :=
  transfer.dc = true ∧
    (display.column.toNat = width ∧ display.page.toNat ≤ height / 8 ∨
      display.page.toNat = height / 8 ∧ display.column.toNat ≤ width)

/-- What a data byte in bounds does: its cell, the flag and the column change. -/
structure Draws (display : Display) (byte : Byte) (later : Display) : Prop where
  cell : ∀ page column, InFrame page column →
    later.frame (address page column) =
      if page = display.page ∧ column = display.column then byte
      else display.frame (address page column)
  column : later.column.toNat = display.column.toNat + 1
  kept : { later with
      changed := display.changed
      column := display.column
      frame := display.frame
      stores := display.stores } = display

theorem draws_of_inFrame {display : Display}
    (inside : InFrame display.page display.column) (byte : Byte) :
    display.Draws byte (display.step ⟨true, byte⟩) := by
  have column := inside.2
  have narrow : ¬ width < display.column.toNat := Nat.not_lt.mpr (Nat.le_of_lt column)
  have low : ¬ height / 8 < display.page.toNat :=
    Nat.not_lt.mpr (Nat.le_of_lt inside.1)
  have drawn : display.step ⟨true, byte⟩ =
      { display with
        frame := Function.update display.frame
          (address display.page display.column) byte
        stores := (display.page, display.column) :: display.stores
        changed := 1
        column := display.column + 1 } := by
    rw [step, write, if_pos rfl, data, if_neg narrow, if_neg low]
    rfl
  rw [drawn]
  refine ⟨?_, ?_, rfl⟩
  · intro page column other
    by_cases here : page = display.page ∧ column = display.column
    · obtain ⟨rfl, rfl⟩ := here
      rw [if_pos ⟨rfl, rfl⟩]
      exact Function.update_self _ _ _
    · rw [if_neg here]
      exact Function.update_of_ne
        (fun same => here (address_injective other inside same)) _ _
  · unfold width at column
    have fits : display.column.toNat + 1 < 2 ^ 8 := by omega
    exact (BitVec.toNat_add _ _).trans (Nat.mod_eq_of_lt fits)

/-- Commands store nothing in the frame. -/
theorem stores_command (display : Display) (byte : Byte) :
    (display.command byte).2.stores = display.stores := by
  unfold command
  dsimp only
  split
  · split <;> rfl
  · split <;> rfl

/-- A data byte that passes the guards is stored where the indices say. -/
theorem stores_data (display : Display) (byte : Byte) :
    (display.data byte).2.stores =
      if display.column.toNat ≤ width ∧ display.page.toNat ≤ height / 8 then
        (display.page, display.column) :: display.stores
      else display.stores := by
  unfold data
  split
  case isTrue wide => rw [if_neg fun both => absurd both.1 (by omega)]
  case isFalse narrow =>
    split
    case isTrue high => rw [if_neg fun both => absurd both.2 (by omega)]
    case isFalse low =>
      rw [if_pos ⟨Nat.le_of_not_lt narrow, Nat.le_of_not_lt low⟩]
      rfl

/-- Every store to the frame has been in bounds. -/
def InBounds (display : Display) : Prop :=
  ∀ cell ∈ display.stores, InFrame cell.1 cell.2

theorem inBounds_step_iff {display : Display} (inBounds : display.InBounds)
    (transfer : Transfer) :
    (display.step transfer).InBounds ↔ ¬ display.PastEdge transfer := by
  obtain ⟨dc, byte⟩ := transfer
  cases dc with
  | false =>
      have same : (display.step ⟨false, byte⟩).stores = display.stores :=
        stores_command display byte
      refine iff_of_true ?_ fun past => Bool.noConfusion past.1
      rw [InBounds, same]
      exact inBounds
  | true =>
      have stored : (display.step ⟨true, byte⟩).stores = _ :=
        stores_data display byte
      rw [InBounds, stored]
      by_cases passes : display.column.toNat ≤ width ∧
          display.page.toNat ≤ height / 8
      · have edges : InFrame display.page display.column ↔
            ¬ display.PastEdge ⟨true, byte⟩ := by
          simp only [InFrame, PastEdge, true_and]
          omega
        rw [if_pos passes, List.forall_mem_cons, ← edges]
        exact and_iff_left inBounds
      · rw [if_neg passes]
        refine iff_of_true inBounds fun past => passes ?_
        rcases past.2 with ⟨column, page⟩ | ⟨page, column⟩
        · exact ⟨Nat.le_of_eq column, page⟩
        · exact ⟨column, Nat.le_of_eq page⟩

/-- Along any run, every store is in bounds exactly if no data byte passes the
guards at an edge; and in every state, a data byte in bounds draws its cell. -/
theorem inBounds_iff_avoids_edges (transfers : List Transfer) :
    (EveryState Steps InBounds transfers .boot ↔
      EveryStep Steps (fun display transfer => ¬ display.PastEdge transfer)
        transfers .boot) ∧
    ∀ (display : Display) (byte : Byte),
      InFrame display.page display.column →
        display.Draws byte (display.step ⟨true, byte⟩) := by
  refine ⟨?_, fun display byte inside => draws_of_inFrame inside byte⟩
  have kept : ∀ display transfer later, True →
      Steps display transfer later → True := fun _ _ _ _ _ => trivial
  have start : Display.boot.InBounds := fun _ => nofun
  refine everyState_iff_everyStep kept ?_ trivial start
  intro display transfer later _ inBounds stepped
  rw [stepped]
  exact inBounds_step_iff inBounds transfer

/-- Page 8 is selected, and a data byte follows. -/
def drawBelow : List Transfer :=
  [⟨false, 0xb8⟩, ⟨true, 0xff⟩]

theorem not_inBounds :
    ¬ ∀ transfers, EveryState Steps InBounds transfers .boot := by
  intro every
  obtain ⟨_, selected⟩ := every drawBelow
  obtain ⟨_, drawn⟩ := selected _ rfl
  have stored := (drawn _ rfl).first (8, 0) (by decide +kernel)
  exact absurd stored (by decide)

end Display

end Ss1106

end RiscvVp
