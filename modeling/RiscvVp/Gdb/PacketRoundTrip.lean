import Mathlib
import RiscvVp.Gdb.Packets

/-!
# Packets read back

The serialiser and the first stage have tables of their own for the characters of
the kinds, and the checksum of a packet is a sum of signed characters.
-/

namespace RiscvVp

namespace Gdb

open Parsing Parser

/-! ## Checksums -/

/-- The sum of the characters, which are signed. -/
def charSum (data : List Byte) : ℤ :=
  (data.map BitVec.toInt).sum

theorem charSum_cons (byte : Byte) (data : List Byte) :
    charSum (byte :: data) = byte.toInt + charSum data :=
  List.sum_cons

/-- A sum that no start of the data takes out of the range of an `int`. -/
def SumFits (data : List Byte) : Prop :=
  ∀ taken, taken <+: data → FitsInt (charSum taken)

theorem foldlM_addChar_iff (data : List Byte) (start total : ℤ) :
    data.foldlM addChar start = some total ↔
      (∀ taken, taken ≠ [] → taken <+: data → FitsInt (start + charSum taken)) ∧
        total = start + charSum data := by
  induction data generalizing start with
  | nil =>
      have nothing : ∀ taken : List Byte, taken ≠ [] → taken <+: [] →
          FitsInt (start + charSum taken) := fun taken present initial =>
        absurd (List.prefix_nil.mp initial) present
      simp only [List.foldlM_nil, Option.pure_def, Option.some.injEq]
      constructor
      · rintro rfl
        exact ⟨nothing, (Int.add_zero start).symm⟩
      · rintro ⟨_, rfl⟩
        exact (Int.add_zero start).symm
  | cons byte data inductionHypothesis =>
      have first : charSum [byte] = byte.toInt := Int.add_zero _
      rw [List.foldlM_cons, charSum_cons, ← Int.add_assoc, addChar]
      by_cases fits : FitsInt (start + byte.toInt)
      · rw [if_pos fits, Option.bind_eq_bind, Option.bind_some,
          inductionHypothesis]
        apply and_congr_left'
        constructor
        · intro rest taken present initial
          obtain ⟨first, others, rfl⟩ := List.exists_cons_of_ne_nil present
          obtain ⟨rfl, later⟩ := List.cons_prefix_cons.mp initial
          rw [charSum_cons, ← Int.add_assoc]
          by_cases done : others = []
          · subst done
            simpa [charSum] using fits
          · exact rest others done later
        · intro every taken present initial
          have longer := every (byte :: taken) (List.cons_ne_nil _ _)
            (List.cons_prefix_cons.mpr ⟨rfl, initial⟩)
          rwa [charSum_cons, ← Int.add_assoc] at longer
      · rw [if_neg fits]
        refine iff_of_false nofun ?_
        rintro ⟨every, _⟩
        refine fits ?_
        rw [← first]
        exact every [byte] (List.cons_ne_nil _ _)
          (List.cons_prefix_cons.mpr ⟨rfl, List.nil_prefix⟩)

theorem calcCsum_eq_some_iff (data : List Byte) (csum : ℤ) :
    calcCsum data = some csum ↔
      SumFits data ∧ csum = (charSum data).tmod 256 := by
  have fits : SumFits data ↔ ∀ taken, taken ≠ [] → taken <+: data →
      FitsInt (0 + charSum taken) := by
    simp only [Int.zero_add]
    constructor
    · intro every taken _ initial
      exact every taken initial
    · intro every taken initial
      by_cases nothing : taken = []
      · subst nothing
        decide
      · exact every taken nothing initial
  rw [fits, calcCsum, Option.bind_eq_bind, Option.bind_eq_some_iff]
  constructor
  · rintro ⟨total, folded, result⟩
    cases result
    obtain ⟨every, rfl⟩ := (foldlM_addChar_iff data 0 total).mp folded
    exact ⟨every, by rw [Int.zero_add]⟩
  · rintro ⟨every, rfl⟩
    refine ⟨0 + charSum data, (foldlM_addChar_iff data 0 _).mpr ⟨every, rfl⟩, ?_⟩
    rw [Int.zero_add]
    rfl

/-- A checksum has two digits exactly if it is not negative. -/
theorem tmod_nonneg_iff (sum : ℤ) :
    0 ≤ sum.tmod 256 ↔ 0 ≤ sum ∨ 256 ∣ sum := by
  rw [Int.tmod_eq_emod]
  split <;> omega

theorem length_formatInt_le_iff (csum : ℤ) :
    (formatInt csum).length ≤ 2 ↔ 0 ≤ csum := by
  unfold formatInt
  split
  case isTrue negative =>
    refine iff_of_false ?_ (by omega)
    simp
  case isFalse nonnegative =>
    exact iff_of_true (Nat.le_refl 2) (by omega)

/-! ## Round trips -/

/-- A payload, which no delimiter is in. -/
def Payload : Type :=
  { data : List Byte // ∀ byte ∈ data, byte ≠ 0 ∧ byte ∉ text "#$%" }

/-- What can be sent. -/
inductive Message : Type
  | ack
  | nack
  | notify (payload : Payload)
  | packet (payload : Payload)

namespace Message

def kind : Message → Kind
  | .ack => .ack
  | .nack => .nack
  | .notify _ => .notify
  | .packet _ => .packet

def data : Message → Option (List Byte)
  | .ack | .nack => none
  | .notify payload | .packet payload => some payload.val

/-- It is written, and what is read is the same and valid. -/
def RoundTrips (message : Message) : Prop :=
  ∃ serialized packet, gdbSerialize message.kind message.data = some serialized ∧
    gdbParseStage1 serialized = .parsed packet [] ∧
    packet.kind = message.kind ∧ packet.data = message.data ∧
    gdbIsValid packet = .ok true

/-- An acknowledgment, or a packet whose sum is not negative, or a multiple of
256, and does not overflow. -/
def Fits : Message → Prop
  | .ack | .nack => True
  | .notify _ => False
  | .packet payload => SumFits payload.val ∧
      (0 ≤ charSum payload.val ∨ 256 ∣ charSum payload.val)

theorem roundTrips_ack : RoundTrips .ack :=
  ⟨[ascii '+'], ⟨.ack, none, [0, 0]⟩, rfl, by decide, rfl, rfl, rfl⟩

theorem roundTrips_nack : RoundTrips .nack :=
  ⟨[ascii '-'], ⟨.nack, none, [0, 0]⟩, rfl, by decide, rfl, rfl, rfl⟩

/-- What a notification starts with starts nothing that is read. -/
theorem gdbParseStage1_hash (rest : List Byte) :
    gdbParseStage1 (ascii '#' :: rest) = .failed := by
  have acknowledge : gdbAcknowledge (ascii '#' :: rest) = .failed :=
    bind_of_failed (by simp [oneOf, satisfy, ascii, text])
  have packet : gdbPacket (ascii '#' :: rest) = .failed :=
    bind_of_failed (token_of_ne rest (by decide))
  have notification : gdbNotification (ascii '#' :: rest) = .failed :=
    bind_of_failed (token_of_ne rest (by decide))
  rw [gdbParseStage1, firstOf_of_failed acknowledge, firstOf_of_failed packet,
    firstOf_of_failed notification]
  rfl

/-- The first stage reads a packet up to its delimiter. -/
theorem gdbParseStage1_packet (payload : Payload) (high low : Byte) :
    gdbParseStage1 (ascii '$' :: (payload.val ++ [ascii '#', high, low])) =
      .parsed ⟨.packet, some payload.val, [high, low]⟩ [] := by
  let rest := payload.val ++ [ascii '#', high, low]
  have acknowledge : gdbAcknowledge (ascii '$' :: rest) = .failed :=
    bind_of_failed (by simp [oneOf, satisfy, ascii, text])
  have run : ∀ byte ∈ payload.val,
      decide (byte ∉ text "#$") = true := by
    intro byte member
    have fewer : text "#$" ⊆ text "#$%" := by decide
    exact decide_eq_true fun delimiter =>
      (payload.property byte member).2 (fewer delimiter)
  have data : many (noneOf (text "#$")) rest =
      .parsed payload.val [ascii '#', high, low] := by
    apply many_of_run run
    intro byte first
    cases first
    decide
  have packet : gdbPacket (ascii '$' :: rest) =
      .parsed ⟨.packet, some payload.val, [high, low]⟩ [] := by
    rw [gdbPacket, bind_of_parsed (token_cons (ascii '$') rest),
      bind_of_parsed data]
    rfl
  rw [gdbParseStage1, firstOf_of_failed acknowledge, firstOf_of_parsed packet]

/-- A payload is written if its checksum has two digits. -/
theorem gdbSerialize_data_iff {kind : Kind} {data serialized : List Byte}
    (carries : kind = .notify ∨ kind = .packet) :
    gdbSerialize kind (some data) = some serialized ↔
      SumFits data ∧ (0 ≤ charSum data ∨ 256 ∣ charSum data) ∧
        kindToChar kind :: data ++
          ascii '#' :: formatCsum ((charSum data).tmod 256).toNat =
            serialized := by
  have stands : gdbSerialize kind (some data) = (calcCsum data).bind
      fun csum =>
        let serialized := kindToChar kind :: data ++ ascii '#' :: formatInt csum
        if data.length + csumLen + 3 ≤ serialized.length then none
        else some serialized := by
    rcases carries with rfl | rfl <;> rfl
  have short : ∀ csum : ℤ, ¬ data.length + csumLen + 3 ≤
      (kindToChar kind :: data ++ ascii '#' :: formatInt csum).length ↔
        0 ≤ csum := by
    intro csum
    rw [← length_formatInt_le_iff csum, csumLen]
    simp only [List.length_append, List.length_cons]
    omega
  have formatted : ∀ csum : ℤ, 0 ≤ csum →
      formatInt csum = formatCsum csum.toNat := fun csum nonnegative =>
    if_neg (Int.not_lt.mpr nonnegative)
  rw [stands, Option.bind_eq_some_iff, ← tmod_nonneg_iff]
  constructor
  · rintro ⟨csum, summed, result⟩
    obtain ⟨fits, rfl⟩ := (calcCsum_eq_some_iff data csum).mp summed
    dsimp only at result
    split at result
    · cases result
    · next room =>
        have nonnegative := (short _).mp room
        rw [formatted _ nonnegative] at result
        exact ⟨fits, nonnegative, Option.some.inj result⟩
  · rintro ⟨fits, nonnegative, rfl⟩
    refine ⟨_, (calcCsum_eq_some_iff data _).mpr ⟨fits, rfl⟩, ?_⟩
    dsimp only
    rw [if_neg ((short _).mpr nonnegative), formatted _ nonnegative]

theorem gdbIsValid_of_formatted {data : List Byte} (kind : Kind)
    (fits : SumFits data) (nonnegative : 0 ≤ (charSum data).tmod 256) :
    gdbIsValid ⟨kind, some data,
      formatCsum ((charSum data).tmod 256).toNat⟩ = .ok true := by
  have summed := (calcCsum_eq_some_iff data _).mpr ⟨fits, rfl⟩
  rw [gdbIsValid]
  dsimp only
  rw [summed]
  dsimp only
  rw [xassert, if_pos (decide_eq_true nonnegative)]
  simp [bind, Except.bind, pure, Except.pure]

theorem not_roundTrips_notify (payload : Payload) :
    ¬ (notify payload).RoundTrips := by
  rintro ⟨serialized, packet, written, read, _⟩
  obtain ⟨_, _, rfl⟩ := (gdbSerialize_data_iff (.inl rfl)).mp written
  cases (gdbParseStage1_hash _).symm.trans read

/-- A message is read back as it was sent exactly if it fits. -/
theorem roundTrips_iff_fits (message : Message) :
    message.RoundTrips ↔ message.Fits := by
  cases message with
  | ack => exact iff_of_true roundTrips_ack trivial
  | nack => exact iff_of_true roundTrips_nack trivial
  | notify payload => exact iff_of_false (not_roundTrips_notify payload) id
  | packet payload =>
      constructor
      · rintro ⟨serialized, packet, written, _⟩
        obtain ⟨fits, even, _⟩ := (gdbSerialize_data_iff (.inr rfl)).mp written
        exact ⟨fits, even⟩
      · rintro ⟨fits, even⟩
        have nonnegative := (tmod_nonneg_iff _).mpr even
        exact ⟨_, _,
          (gdbSerialize_data_iff (.inr rfl)).mpr ⟨fits, even, rfl⟩,
          gdbParseStage1_packet payload _ _, rfl, rfl,
          gdbIsValid_of_formatted .packet fits nonnegative⟩

/-- A notification of one letter. -/
theorem not_carried : ¬ ∀ message : Message, message.RoundTrips := by
  intro every
  exact not_roundTrips_notify ⟨[ascii 'x'], by decide⟩ (every _)

end Message

end Gdb

end RiscvVp
