import Mathlib.Data.Nat.Notation

/-!
# Named fields of a machine word

A register layout names disjoint runs of bits.  A `BitField` is one such run
together with the proof that it fits the word, so reading and writing it never
leaves the word.  The lemmas say that writing a field is read back, that it
leaves every disjoint field alone, and how both operations meet a masked write
of the whole word.
-/

namespace RiscvVp.Bits

/-- A run of `len` bits of a `w`-bit word, starting at bit `start`. -/
structure BitField (w : Nat) where
  start : Nat
  len : Nat
  fits : start + len ≤ w

namespace BitField

variable {w : Nat}

/-- Read the field. -/
def get (field : BitField w) (word : BitVec w) : BitVec field.len :=
  word.extractLsb' field.start field.len

/-- The word whose bits are exactly those of the field. -/
def mask (field : BitField w) : BitVec w :=
  (BitVec.allOnes field.len).setWidth w <<< field.start

/-- Replace the field and keep every other bit. -/
def set (field : BitField w) (value : BitVec field.len)
    (word : BitVec w) : BitVec w :=
  (word &&& ~~~field.mask) ||| (value.setWidth w <<< field.start)

/-- A field, usually of one bit, read as a flag. -/
def isSet (field : BitField w) (word : BitVec w) : Bool :=
  field.get word != 0

/-- The two runs share no bit. -/
def Disjoint (first second : BitField w) : Prop :=
  first.start + first.len ≤ second.start ∨
    second.start + second.len ≤ first.start

instance (first second : BitField w) : Decidable (first.Disjoint second) :=
  inferInstanceAs (Decidable (_ ∨ _))

variable (field : BitField w)

theorem getLsbD_get (word : BitVec w) (i : Nat) :
    (field.get word).getLsbD i =
      (decide (i < field.len) && word.getLsbD (field.start + i)) := by
  simp [get, BitVec.getLsbD_extractLsb']

theorem getLsbD_mask (i : Nat) :
    field.mask.getLsbD i =
      decide (field.start ≤ i ∧ i < field.start + field.len) := by
  have fits := field.fits
  rw [Bool.eq_iff_iff]
  simp only [mask, BitVec.getLsbD_shiftLeft, BitVec.getLsbD_setWidth,
    BitVec.getLsbD_allOnes, Bool.and_eq_true, Bool.not_eq_true',
    decide_eq_true_eq, decide_eq_false_iff_not]
  omega

theorem getLsbD_set (value : BitVec field.len) (word : BitVec w) (i : Nat) :
    (field.set value word).getLsbD i =
      if field.start ≤ i ∧ i < field.start + field.len then
        value.getLsbD (i - field.start)
      else word.getLsbD i := by
  have fits := field.fits
  unfold set
  rw [BitVec.getLsbD_or, BitVec.getLsbD_and, BitVec.getLsbD_not,
    getLsbD_mask, BitVec.getLsbD_shiftLeft, BitVec.getLsbD_setWidth]
  by_cases inside : field.start ≤ i ∧ i < field.start + field.len
  · have bounded : i < w := by omega
    have shifted : i - field.start < w := by omega
    have above : ¬ i < field.start := by omega
    simp [inside, bounded, shifted, above]
  · rw [if_neg inside]
    by_cases below : i < field.start
    · by_cases bounded : i < w
      · simp [below, bounded, inside]
      · simp [below, bounded, BitVec.getLsbD_of_ge _ _ (Nat.le_of_not_lt bounded)]
    · have past : value.getLsbD (i - field.start) = false :=
        BitVec.getLsbD_of_ge _ _ (by omega)
      by_cases bounded : i < w
      · simp [past, bounded, inside]
      · simp [past, bounded, BitVec.getLsbD_of_ge _ _ (Nat.le_of_not_lt bounded)]

@[simp]
theorem get_set_same (value : BitVec field.len) (word : BitVec w) :
    field.get (field.set value word) = value := by
  apply BitVec.eq_of_getLsbD_eq
  intro i bounded
  rw [getLsbD_get, getLsbD_set]
  simp [bounded]

theorem get_set_of_disjoint {field other : BitField w}
    (disjoint : field.Disjoint other)
    (value : BitVec other.len) (word : BitVec w) :
    field.get (other.set value word) = field.get word := by
  apply BitVec.eq_of_getLsbD_eq
  intro i bounded
  rw [getLsbD_get, getLsbD_get, getLsbD_set, if_neg]
  rcases disjoint with before | after
  · omega
  · omega

/-- The field's bits are the only ones an assignment changes. -/
theorem set_and_not {free : BitVec w} (value : BitVec field.len)
    (word : BitVec w) (inside : field.mask &&& ~~~free = 0#w) :
    field.set value word &&& ~~~free = word &&& ~~~free := by
  apply BitVec.eq_of_getLsbD_eq
  intro i bounded
  have bit := congrArg (·.getLsbD i) inside
  simp only [BitVec.getLsbD_and, BitVec.getLsbD_not, getLsbD_mask,
    getLsbD_set, BitVec.getLsbD_zero, bounded, decide_true,
    Bool.true_and] at bit ⊢
  by_cases member : field.start ≤ i ∧ i < field.start + field.len
  · simp only [member, and_self, decide_true, Bool.true_and] at bit
    rw [bit, Bool.and_false, Bool.and_false]
  · rw [if_neg member]

/-- Any field of a word whose other bits a mask cleared. -/
theorem get_and (word mask : BitVec w) :
    field.get (word &&& mask) = field.get word &&& field.get mask := by
  apply BitVec.eq_of_getLsbD_eq
  intro i bounded
  simp only [getLsbD_get, BitVec.getLsbD_and, bounded, decide_true,
    Bool.true_and]

theorem get_or (first second : BitVec w) :
    field.get (first ||| second) = field.get first ||| field.get second := by
  apply BitVec.eq_of_getLsbD_eq
  intro i bounded
  simp only [getLsbD_get, BitVec.getLsbD_or, bounded, decide_true,
    Bool.true_and]

theorem get_not (word : BitVec w) :
    field.get (~~~word) = ~~~field.get word := by
  have fits := field.fits
  apply BitVec.eq_of_getLsbD_eq
  intro i bounded
  have inside : field.start + i < w := by omega
  simp only [getLsbD_get, BitVec.getLsbD_not, bounded, inside, decide_true,
    Bool.true_and]

/-- A field of one bit, read as a flag. -/
theorem isSet_of_bit (start : Nat) (fits : start + 1 ≤ w) (word : BitVec w) :
    isSet ⟨start, 1, fits⟩ word = word.getLsbD start := by
  unfold isSet get
  cases bit : word.getLsbD start with
  | false =>
      have zero : word.extractLsb' start 1 = 0#1 := by
        apply BitVec.eq_of_getLsbD_eq
        intro i bounded
        obtain rfl : i = 0 := by omega
        simp [bit]
      rw [zero]
      rfl
  | true =>
      have one : word.extractLsb' start 1 = 1#1 := by
        apply BitVec.eq_of_getLsbD_eq
        intro i bounded
        obtain rfl : i = 0 := by omega
        simp [bit]
      rw [one]
      rfl

end BitField

/-! ## Masked writes -/

variable {w : Nat}

/-- Replace the bits that the mask selects. -/
def writeMasked (old value mask : BitVec w) : BitVec w :=
  (old &&& ~~~mask) ||| (value &&& mask)

theorem getLsbD_writeMasked (old value mask : BitVec w) (i : Nat) :
    (writeMasked old value mask).getLsbD i =
      if mask.getLsbD i then value.getLsbD i else old.getLsbD i := by
  unfold writeMasked
  rw [BitVec.getLsbD_or, BitVec.getLsbD_and, BitVec.getLsbD_and,
    BitVec.getLsbD_not]
  by_cases bounded : i < w
  · cases selected : mask.getLsbD i <;> simp [bounded]
  · simp [bounded, BitVec.getLsbD_of_ge _ _ (Nat.le_of_not_lt bounded)]

/-- A field inside the mask takes the written value. -/
theorem BitField.get_writeMasked_of_mask {field : BitField w}
    {mask : BitVec w} (inside : field.get mask = BitVec.allOnes field.len)
    (old value : BitVec w) :
    field.get (writeMasked old value mask) = field.get value := by
  unfold writeMasked
  rw [get_or, get_and, get_and, get_not, inside]
  simp

/-- A field outside the mask keeps its value. -/
theorem BitField.get_writeMasked_of_not_mask {field : BitField w}
    {mask : BitVec w} (outside : field.get mask = 0#(field.len))
    (old value : BitVec w) :
    field.get (writeMasked old value mask) = field.get old := by
  unfold writeMasked
  rw [get_or, get_and, get_and, get_not, outside]
  simp

/-- A field that is put back after the write might as well not have been
selected. -/
theorem BitField.set_get_writeMasked (field : BitField w)
    (old value mask : BitVec w) :
    field.set (field.get old) (writeMasked old value mask) =
      writeMasked old value (mask &&& ~~~field.mask) := by
  apply BitVec.eq_of_getLsbD_eq
  intro i bounded
  rw [getLsbD_set, getLsbD_writeMasked, getLsbD_writeMasked,
    BitVec.getLsbD_and, BitVec.getLsbD_not, getLsbD_mask]
  by_cases inside : field.start ≤ i ∧ i < field.start + field.len
  · have offset : i - field.start < field.len := by omega
    have place : field.start + (i - field.start) = i := by omega
    rw [if_pos inside, getLsbD_get, decide_eq_true offset, place]
    simp [inside]
  · simp [inside, bounded]

/-- A field is written without effect when it has the value already. -/
theorem BitField.writeMasked_mask_eq_self_iff (field : BitField w)
    (old value : BitVec w) :
    writeMasked old value field.mask = old ↔
      field.get value = field.get old := by
  constructor
  · intro same
    apply BitVec.eq_of_getLsbD_eq
    intro i bounded
    have bit := congrArg (·.getLsbD (field.start + i)) same
    rw [getLsbD_writeMasked, getLsbD_mask, decide_eq_true (by omega),
      if_pos rfl] at bit
    rw [getLsbD_get, getLsbD_get, bit]
  · intro same
    apply BitVec.eq_of_getLsbD_eq
    intro i bounded
    rw [getLsbD_writeMasked, getLsbD_mask]
    by_cases inside : field.start ≤ i ∧ i < field.start + field.len
    · have bit := congrArg (·.getLsbD (i - field.start)) same
      have offset : i - field.start < field.len := by omega
      have place : field.start + (i - field.start) = i := by omega
      simp only [getLsbD_get, offset, place, decide_true,
        Bool.true_and] at bit
      simp [inside, bit]
    · simp [inside]

/-- No bit outside the mask is set. -/
def Within (mask word : BitVec w) : Prop :=
  word &&& ~~~mask = 0

instance (mask word : BitVec w) : Decidable (Within mask word) :=
  inferInstanceAs (Decidable (_ = _))

theorem within_iff (mask word : BitVec w) :
    Within mask word ↔
      ∀ i, word.getLsbD i = true → mask.getLsbD i = true := by
  unfold Within
  constructor
  · intro cleared i bit
    have bounded : i < w := BitVec.lt_of_getLsbD bit
    have unset := congrArg (fun masked => masked.getLsbD i) cleared
    simpa [BitVec.getLsbD_and, BitVec.getLsbD_not, bit, bounded] using unset
  · intro covered
    apply BitVec.eq_of_getLsbD_eq
    intro i bounded
    rw [BitVec.getLsbD_and, BitVec.getLsbD_not]
    cases bit : word.getLsbD i with
    | false => simp
    | true => simp [covered i bit, bounded]

theorem Within.zero (mask : BitVec w) : Within mask 0 := by
  simp [Within]

theorem Within.writeMasked {allowed mask old : BitVec w}
    (within : Within allowed old) (narrower : Within allowed mask)
    (value : BitVec w) : Within allowed (Bits.writeMasked old value mask) := by
  rw [within_iff] at within narrower ⊢
  intro i bit
  rw [getLsbD_writeMasked] at bit
  split at bit
  next selected => exact narrower i selected
  next => exact within i bit

end RiscvVp.Bits
