import Mathlib
import RiscvVp.NvMain.MappingScheme

/-!
# Configured channels

`NVMain::SetConfig` makes as many memory controllers as there are channels and
gives every partition the bits of its count.  The coordinates of an address are
below the counts, so that `memoryControllers[channel]` is one of the controllers;
which of them can be reached depends on the powers of two.
-/

namespace RiscvVp

namespace NvMain

/-- The parameters that `SetConfig` reads. -/
structure Params where
  rows : BitVec 64
  cols : BitVec 64
  banks : BitVec 64
  ranks : BitVec 64
  channels : BitVec 64
  /-- If the key exists. -/
  matHeight : Option (BitVec 64)
  addressMappingScheme : List Char

namespace Params

variable (params : Params)

/-- The counts as they are cast to `int`; the rows are divided by the height of a
MAT. -/
def count : Option (Partition → BitVec 32) := do
  let (rows, subarrays) ← match params.matHeight with
    | some height =>
        if height = 0 then none
        else some (height, params.rows / height)
    | none => some (params.rows, 1)
  return fun
    | .row => rows.setWidth 32
    | .col => params.cols.setWidth 32
    | .bank => params.banks.setWidth 32
    | .rank => params.ranks.setWidth 32
    | .channel => params.channels.setWidth 32
    | .subarray => subarrays.setWidth 32

end Params

theorem mlog2Loop_eq (fuel num : ℕ) (retVal : ℤ) (positive : num ≠ 0)
    (small : num < 2 ^ fuel) :
    mlog2Loop fuel num retVal = retVal + 1 + Nat.log 2 num := by
  induction fuel generalizing num retVal with
  | zero => omega
  | succ fuel inductionHypothesis =>
      rw [mlog2Loop, if_pos positive]
      by_cases last : num / 2 = 0
      · have one : num = 1 := by omega
        rw [last, one, Nat.log_one_right]
        cases fuel <;> simp [mlog2Loop]
      · rw [inductionHypothesis _ _ last (by omega),
          Nat.log_of_one_lt_of_le (by decide) (by omega : 2 ≤ num)]
        push_cast
        ring

/-- For a number that is not negative. -/
theorem mlog2_eq_log {num : BitVec 32} (positive : 0 < num.toInt) :
    mlog2 num = Nat.log 2 num.toNat := by
  have same : num.toInt = num.toNat := by
    rw [BitVec.toInt_eq_toNat_cond] at positive ⊢
    split
    next => rfl
    next large =>
      rw [if_neg large] at positive
      have below := num.isLt
      omega
  unfold mlog2
  split
  next low =>
    have one : num.toNat = 1 := by omega
    rw [one, Nat.log_one_right]
    rfl
  next high =>
    rw [mlog2Loop_eq 32 num.toNat (-1) (by omega) num.isLt]
    ring

theorem toNat_mlog2_lt (num : BitVec 32) : (mlog2 num).toNat < 64 := by
  by_cases positive : 0 < num.toInt
  · rw [mlog2_eq_log positive, Int.toNat_natCast]
    have nonzero : num.toNat ≠ 0 := by
      intro zero
      have : num = 0 := BitVec.eq_of_toNat_eq zero
      rw [this] at positive
      exact absurd positive (by decide)
    have below : Nat.log 2 num.toNat < 32 :=
      (Nat.log_lt_iff_lt_pow (by decide) nonzero).2 num.isLt
    omega
  · rw [mlog2, if_pos (by omega)]
    decide

namespace TranslationMethod

/-- `SetBitWidths` with the bits of the counts. -/
def setBitWidths (count : Partition → BitVec 32) (method : TranslationMethod) :
    TranslationMethod :=
  { method with
    bitWidths := fun part => (mlog2 (count part)).toNat
    narrow := fun part => toNat_mlog2_lt (count part) }

end TranslationMethod

/-- The decoder and the counts of its method. -/
structure Configured where
  translator : AddressTranslator
  count : Partition → BitVec 32

/-- The decoder of `SetConfig`, if the configuration names no other. -/
def Params.setConfig (params : Params) : Option Configured := do
  let count ← params.count
  let method ← (TranslationMethod.new.setBitWidths count).setAddressMappingScheme
    params.addressMappingScheme
  return ⟨.withMethod method, count⟩

namespace Configured

open AddressTranslator MappingScheme

variable {params : Params} {configured : Configured}

theorem radix_of_setConfig (set : params.setConfig = some configured)
    {part : Partition} (positive : 0 < (configured.count part).toInt) :
    configured.translator.radix part =
      2 ^ Nat.log 2 (configured.count part).toNat := by
  obtain ⟨count, counted, set⟩ := Option.bind_eq_some_iff.1 set
  obtain ⟨method, ordered, same⟩ := Option.bind_eq_some_iff.1 set
  cases same
  unfold TranslationMethod.setAddressMappingScheme at ordered
  split at ordered
  next =>
    cases ordered
    change 2 ^ (mlog2 (count part)).toNat = _
    rw [mlog2_eq_log positive, Int.toNat_natCast]
  next => cases ordered

theorem complete_of_setConfig (set : params.setConfig = some configured)
    (wellformed : Wellformed params.addressMappingScheme) :
    configured.translator.Complete := by
  obtain ⟨count, counted, set⟩ := Option.bind_eq_some_iff.1 set
  obtain ⟨method, ordered, same⟩ := Option.bind_eq_some_iff.1 set
  cases same
  exact (complete_iff_wellformed ordered).2 wellformed

/-- Coordinates that are zero but for one partition. -/
def only (part : Partition) (number : ℕ) : Partition → BitVec 64 :=
  Function.update (fun _ => 0) part (BitVec.ofNat 64 number)

theorem fits_only {translator : AddressTranslator} {part : Partition} {number : ℕ}
    (below : number < translator.radix part) :
    translator.Fits (only part number) := by
  intro other
  by_cases same : other = part
  · subst same
    rw [only, Function.update_self, BitVec.toNat_ofNat]
    exact (Nat.mod_le _ _).trans_lt below
  · rw [only, Function.update_of_ne same]
    exact Nat.two_pow_pos _

/-- A partition's coordinate is below its count for every address, so that each
request has its memory controller; and the numbers that some address has are those
below the greatest power of two in the count. -/
theorem coordinates_of_setConfig (set : params.setConfig = some configured)
    (wellformed : Wellformed params.addressMappingScheme)
    {part : Partition} (positive : 0 < (configured.count part).toInt)
    (before : Partition → BitVec 64) :
    (∀ address, ∃ fields,
      configured.translator.translate address before = some fields ∧
        (fields part).toNat < (configured.count part).toNat) ∧
    (configured.translator.lowBits + configured.translator.totalBits ≤ 64 →
      ∀ number, (∃ address fields,
        configured.translator.translate address before = some fields ∧
          (fields part).toNat = number) ↔
        number < 2 ^ Nat.log 2 (configured.count part).toNat) := by
  have complete := complete_of_setConfig set wellformed
  have radix := radix_of_setConfig set positive
  have nonzero : (configured.count part).toNat ≠ 0 := by
    intro zero
    have none : configured.count part = 0 := BitVec.eq_of_toNat_eq zero
    rw [none] at positive
    exact absurd positive (by decide)
  constructor
  · intro address
    obtain ⟨fields, translated, fits, -⟩ :=
      translate_of_complete complete before address
    have below := fits part
    rw [radix] at below
    exact ⟨fields, translated,
      below.trans_le (Nat.pow_log_le_self 2 nonzero)⟩
  · intro narrow number
    rw [← radix]
    constructor
    · rintro ⟨address, fields, translated, rfl⟩
      obtain ⟨others, again, fits, -⟩ :=
        translate_of_complete complete before address
      rw [translated, Option.some.injEq] at again
      rw [again]
      exact fits part
    · intro below
      refine ⟨_, _, translate_of_fits complete narrow before (fits_only below), ?_⟩
      have inside : number < 2 ^ 64 := by
        refine below.trans ?_
        exact Nat.pow_lt_pow_right (by decide)
          (configured.translator.method.narrow part)
      rw [only, Function.update_self, BitVec.toNat_ofNat, Nat.mod_eq_of_lt inside]

/-- The parameters that `Params` starts with. -/
def defaults : Params where
  rows := 65536
  cols := 32
  banks := 8
  ranks := 2
  channels := 2
  matHeight := none
  addressMappingScheme := defaultScheme

theorem wellformed_defaultScheme : Wellformed defaultScheme where
  nodup := by decide
  known := by decide

theorem coordinates_of_setConfig_defaults :
    ∃ configured, defaults.setConfig = some configured ∧
      ∀ address, ∃ fields,
        configured.translator.translate address (fun _ => 0) = some fields ∧
          (fields .channel).toNat < (configured.count .channel).toNat := by
  obtain ⟨configured, set⟩ : ∃ configured, defaults.setConfig = some configured :=
    ⟨_, rfl⟩
  have positive : 0 < (configured.count .channel).toInt := by
    cases set
    decide
  exact ⟨configured, set, (coordinates_of_setConfig set wellformed_defaultScheme
    positive fun _ => 0).1⟩

end Configured

end NvMain

end RiscvVp
