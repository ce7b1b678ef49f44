import Mathlib.Data.BitVec
import Mathlib.Data.List.Basic

/-!
# Accesses to an array of the host

An array lies somewhere in the memory of the host and stands for a range of other
addresses.  An address of the range is translated by a subtraction and an addition
that wrap around.
-/

namespace RiscvVp

namespace HostMemory

abbrev Pointer : Type := BitVec 64

abbrev Byte : Type := BitVec 8

/-- An array of the host that stands for the addresses from `offset` on. -/
structure MappedArray where
  start : Pointer
  size : ℕ
  offset : BitVec 64
  notNull : start ≠ 0
  fits : start.toNat + size ≤ 2 ^ 64
  mapped : offset.toNat + size ≤ 2 ^ 64
  /-- A difference of two pointers into an array can be represented. -/
  bounded : size < 2 ^ 63

namespace MappedArray

variable (array : MappedArray)

def Contains (pointer : Pointer) : Prop :=
  array.start.toNat ≤ pointer.toNat ∧
    pointer.toNat < array.start.toNat + array.size

/-- The addresses from `addr` on are among those the array stands for. -/
def Holds (addr : BitVec 64) (numBytes : ℕ) : Prop :=
  numBytes = 0 ∨
    array.offset.toNat ≤ addr.toNat ∧
      addr.toNat + numBytes ≤ array.offset.toNat + array.size

instance (addr : BitVec 64) (numBytes : ℕ) : Decidable (array.Holds addr numBytes) :=
  inferInstanceAs (Decidable (_ ∨ _ ∧ _))

/-- The pointer to what stands for an address. -/
def pointer (addr : BitVec 64) : Pointer := array.start + (addr - array.offset)

/-- The string at the address ends before the array does. -/
def HoldsString (memory : Pointer → Byte) (addr : BitVec 64) : Prop :=
  ∃ length, array.Holds addr (length + 1) ∧
    memory (array.pointer addr + BitVec.ofNat 64 length) = 0

end MappedArray

/-- What is read or written at a pointer.  A string is read up to its zero.  The last
kind is a part of an object that is not the array and has a size of its own. -/
inductive Access : Type
  | read (pointer : Pointer) (numBytes : ℕ)
  | readString (pointer : Pointer)
  | write (pointer : Pointer) (bytes : List Byte)
  | own (size offset numBytes : ℕ)
  deriving DecidableEq, Repr

namespace Access

/-- The access does not leave the array, or the object that it is for. -/
def Inside (memory : Pointer → Byte) (array : MappedArray) : Access → Prop
  | .read pointer numBytes =>
      ∀ index < numBytes, array.Contains (pointer + BitVec.ofNat 64 index)
  | .readString pointer =>
      ∀ index, (∀ earlier < index, memory (pointer + BitVec.ofNat 64 earlier) ≠ 0) →
        array.Contains (pointer + BitVec.ofNat 64 index)
  | .write pointer bytes =>
      ∀ index < bytes.length, array.Contains (pointer + BitVec.ofNat 64 index)
  | .own size offset numBytes => offset + numBytes ≤ size

end Access

section Inside

variable {memory : Pointer → Byte} {array : MappedArray} {addr : BitVec 64}

/-- A byte behind a translated address is in the array if the distance that is left
after the subtraction is. -/
theorem contains_pointer (index : ℕ) :
    array.Contains (array.pointer addr + BitVec.ofNat 64 index) ↔
      ((addr - array.offset).toNat + index) % 2 ^ 64 < array.size := by
  have fits := array.fits
  have start := array.start.isLt
  simp only [MappedArray.Contains, MappedArray.pointer, BitVec.toNat_add,
    BitVec.toNat_ofNat]
  omega

/-- The distance of an address that the array stands for. -/
theorem toNat_sub_offset (above : array.offset.toNat ≤ addr.toNat) :
    (addr - array.offset).toNat = addr.toNat - array.offset.toNat :=
  BitVec.toNat_sub_of_le (BitVec.le_def.2 above)

/-- A range of bytes is in the array exactly if the array stands for the range. -/
theorem contains_iff_holds {numBytes : ℕ} :
    (∀ index < numBytes,
        array.Contains (array.pointer addr + BitVec.ofNat 64 index)) ↔
      array.Holds addr numBytes := by
  have mapped := array.mapped
  have bounded := array.bounded
  have wraps : (addr - array.offset).toNat =
      (2 ^ 64 - array.offset.toNat + addr.toNat) % 2 ^ 64 := BitVec.toNat_sub ..
  have addrBound := addr.isLt
  simp only [contains_pointer, MappedArray.Holds]
  constructor
  · intro inside
    rcases Nat.eq_zero_or_pos numBytes with none | some
    · exact .inl none
    refine .inr ?_
    have first := inside 0 some
    have above : array.offset.toNat ≤ addr.toNat := by omega
    have distance := toNat_sub_offset above
    refine ⟨above, Nat.le_of_not_lt fun beyond => ?_⟩
    -- The first byte after the array is not inside.
    have outside := inside (array.size - (addr - array.offset).toNat) (by omega)
    omega
  · rintro (none | ⟨above, fits⟩) index below
    · omega
    · have distance := toNat_sub_offset above
      omega

theorem inside_read_iff {numBytes : ℕ} :
    (Access.read (array.pointer addr) numBytes).Inside memory array ↔
      array.Holds addr numBytes :=
  contains_iff_holds

theorem inside_write_iff {bytes : List Byte} :
    (Access.write (array.pointer addr) bytes).Inside memory array ↔
      array.Holds addr bytes.length :=
  contains_iff_holds

/-- A string that starts in the array is read inside it if it ends there. -/
theorem inside_readString_iff :
    (Access.readString (array.pointer addr)).Inside memory array ↔
      array.HoldsString memory addr := by
  constructor
  · intro inside
    by_contra unterminated
    -- Without a zero the string runs on through the whole array.
    have everywhere : ∀ count, array.Holds addr count := by
      intro count
      induction count with
      | zero => exact .inl rfl
      | succ count inductionHypothesis =>
          rw [← contains_iff_holds] at inductionHypothesis ⊢
          intro index below
          apply inside
          intro earlier isEarlier ends
          apply unterminated
          refine ⟨earlier, contains_iff_holds.1 fun place upTo => ?_, ends⟩
          exact inductionHypothesis place (by omega)
    rcases everywhere (array.size + 1) with none | ⟨above, fits⟩
    · cases none
    · omega
  · rintro ⟨length, holds, ends⟩ index reaches
    have short : index ≤ length := by
      by_contra beyond
      exact reaches length (Nat.lt_of_not_le beyond) ends
    exact contains_iff_holds.2 holds index (Nat.lt_succ_of_le short)

end Inside

end HostMemory

end RiscvVp
