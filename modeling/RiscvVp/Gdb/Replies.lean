import Mathlib
import RiscvVp.Gdb.PacketRoundTrip
import RiscvVp.Gdb.Stub

/-!
# What fits into a packet

The sum of the characters of a packet is kept in an `int`.  The replies are made
of characters below 0x80, so that they can be sent as long as the sum does not
overflow; those that are short can.
-/

namespace RiscvVp

namespace Gdb

open Interaction

/-- `gdb_serialize` returns. -/
def Serializes (data : List Byte) : Prop :=
  ∃ serialized, gdbSerialize .packet (some data) = some serialized

/-- The data have been sent, in a packet. -/
def Stub.HasSent (stub later : Stub) (data : List Byte) : Prop :=
  ∃ serialized, gdbSerialize .packet (some data) = some serialized ∧
    later.sent = .packet serialized :: stub.sent

theorem sendPacket_of_serialized {ι : Type} {data serialized : List Byte}
    (written : gdbSerialize .packet (some data) = some serialized) :
    (sendPacket data : StubM ι Unit) =
      Machine.modifies (Stub.post serialized) := by
  rw [sendPacket, written]

theorem sendPacket_of_not_serializes {ι : Type} {data : List Byte}
    (refused : ¬ Serializes data) :
    (sendPacket data : StubM ι Unit) = Machine.abort .unserialized := by
  rw [sendPacket, Option.eq_none_iff_forall_ne_some.mpr fun serialized written =>
    refused ⟨serialized, written⟩]

theorem run_sendPacket {ι W : Type}
    {handle : (request : Request ι) → W → request.Reply × W}
    {data : List Byte} {stub last : Stub} {world later : W} :
    (sendPacket data stub).run handle world = (.done () last, later) ↔
      ∃ serialized, gdbSerialize .packet (some data) = some serialized ∧
        last = stub.post serialized ∧ later = world := by
  by_cases serializes : Serializes data
  · obtain ⟨serialized, written⟩ := serializes
    rw [sendPacket_of_serialized written]
    constructor
    · rintro ⟨⟩
      exact ⟨serialized, written, rfl, rfl⟩
    · rintro ⟨again, rewritten, rfl, rfl⟩
      cases written.symm.trans rewritten
      rfl
  · rw [sendPacket_of_not_serializes serializes]
    constructor
    · rintro ⟨⟩
    · rintro ⟨serialized, written, _⟩
      exact absurd ⟨serialized, written⟩ serializes

/-- None of the characters is negative. -/
def Plain (data : List Byte) : Prop :=
  ∀ byte ∈ data, 0 ≤ byte.toInt

instance (data : List Byte) : Decidable (Plain data) :=
  inferInstanceAs (Decidable (∀ byte ∈ data, 0 ≤ byte.toInt))

theorem charSum_append (first second : List Byte) :
    charSum (first ++ second) = charSum first + charSum second := by
  rw [charSum, List.map_append, List.sum_append]
  rfl

/-! ## Sums of plain characters -/

theorem Plain.append {first second : List Byte} (plainFirst : Plain first)
    (plainSecond : Plain second) : Plain (first ++ second) :=
  List.forall_mem_append.mpr ⟨plainFirst, plainSecond⟩

theorem Plain.flatten {parts : List (List Byte)}
    (plain : ∀ part ∈ parts, Plain part) : Plain parts.flatten := by
  intro byte member
  obtain ⟨part, among, inside⟩ := List.mem_flatten.mp member
  exact plain part among byte inside

theorem plain_flatMap {α : Type} {values : List α} {format : α → List Byte}
    (plain : ∀ value, Plain (format value)) : Plain (values.flatMap format) := by
  rw [List.flatMap_def]
  refine Plain.flatten fun part member => ?_
  obtain ⟨value, _, rfl⟩ := List.mem_map.mp member
  exact plain value

theorem Plain.charSum_nonneg {data : List Byte} (plain : Plain data) :
    0 ≤ charSum data := by
  refine List.sum_nonneg fun value member => ?_
  obtain ⟨byte, among, rfl⟩ := List.mem_map.mp member
  exact plain byte among

/-- No start of the data has a larger sum. -/
theorem Plain.sumFits_iff {data : List Byte} (plain : Plain data) :
    SumFits data ↔ charSum data < 2 ^ 31 := by
  constructor
  · exact fun fits => (fits data (List.prefix_refl data)).2
  · rintro below _ ⟨rest, rfl⟩
    obtain ⟨start, others⟩ := List.forall_mem_append.mp plain
    have first := Plain.charSum_nonneg start
    have second := Plain.charSum_nonneg others
    rw [charSum_append] at below
    constructor <;> omega

theorem Plain.serializes_iff {data : List Byte} (plain : Plain data) :
    Serializes data ↔ charSum data < 2 ^ 31 := by
  rw [← plain.sumFits_iff]
  constructor
  · rintro ⟨serialized, written⟩
    exact ((Message.gdbSerialize_data_iff (.inr rfl)).mp written).1
  · intro fits
    exact ⟨_, (Message.gdbSerialize_data_iff (.inr rfl)).mpr
      ⟨fits, .inl plain.charSum_nonneg, rfl⟩⟩

theorem charSum_le (data : List Byte) :
    charSum data ≤ 127 * (data.length : ℤ) := by
  induction data with
  | nil => exact Int.le_refl 0
  | cons byte data inductionHypothesis =>
      have first : byte.toInt ≤ 127 := Int.le_of_lt_add_one BitVec.toInt_lt
      rw [charSum_cons, List.length_cons]
      push_cast
      omega

theorem Plain.serializes_of_short {data : List Byte} (plain : Plain data)
    (short : data.length ≤ 2 ^ 24) : Serializes data := by
  have most := charSum_le data
  exact plain.serializes_iff.mpr (by omega)

/-! ## What the server writes -/

theorem hexDigitOf_nonneg :
    ∀ digit : Fin 16, 0 ≤ (hexDigitOf digit).toInt := by
  decide

theorem plain_hexByte (byte : Byte) : Plain (hexByte byte) := by
  have high : byte.toNat / 16 < 16 := by omega
  have low : byte.toNat % 16 < 16 := by omega
  have first := hexDigitOf_nonneg ⟨_, high⟩
  have second := hexDigitOf_nonneg ⟨_, low⟩
  simpa [Plain, hexByte, formatCsum] using And.intro first second

theorem plain_formatRegister (architecture : Architecture)
    (value : BitVec 64) : Plain (formatRegister architecture value) :=
  plain_flatMap plain_hexByte

theorem plain_decimal (value : ℕ) : Plain (decimal value) := by
  have digits : ∀ character : Char, character.isDigit = true →
      0 ≤ (ascii character).toInt := by
    intro character digit
    have bounds : 48 ≤ character.toNat ∧ character.toNat ≤ 57 := by
      simpa [Char.isDigit, UInt32.le_iff_toNat_le] using digit
    have small : character.toNat % 256 = character.toNat := by omega
    rw [ascii, BitVec.toInt_eq_toNat_of_lt]
    · exact Int.natCast_nonneg _
    · rw [BitVec.toNat_ofNat]
      omega
  intro byte member
  obtain ⟨character, among, rfl⟩ := List.mem_map.mp member
  rw [Nat.toString_eq_ofList_toDigits, String.toList_ofList] at among
  exact digits character
    (Nat.isDigit_of_mem_toDigits (by decide) (by decide) among)

theorem length_decimal_le {value : ℕ} (small : value < 10 ^ 10) :
    (decimal value).length ≤ 10 := by
  rw [decimal, text, List.length_map, Nat.toString_eq_ofList_toDigits,
    String.toList_ofList]
  exact Nat.toDigits_length 10 value 10 (by decide) small

/-- The list of `threadInfo`, by the statuses that the harts are found in. -/
def listing {ι : Type} (targets : Targets ι) : List (ι × CoreExecStatus) → List Byte
  | [] => []
  | (hart, status) :: rest =>
      if status = .terminated then listing targets rest
      else
        decimal (targets.hartId hart + 1) ++
          (if rest = [] then [] else text ",") ++ listing targets rest

theorem plain_listing {ι : Type} (targets : Targets ι)
    (harts : List (ι × CoreExecStatus)) : Plain (listing targets harts) := by
  induction harts with
  | nil => exact List.forall_mem_nil _
  | cons hart rest inductionHypothesis =>
      have separator : Plain (if rest = [] then [] else text ",") := by
        split <;> decide
      obtain ⟨hart, status⟩ := hart
      rw [listing]
      split
      · exact inductionHypothesis
      · exact ((plain_decimal _).append separator).append inductionHypothesis

/-- The reply to an unsupported command. -/
theorem gdbSerialize_nil :
    gdbSerialize .packet (some []) = some (text "$#00") := by
  decide

/-- The stop reply is short. -/
theorem serializes_stop (reason : StopReason) {value : ℕ}
    (small : value < 10 ^ 10) :
    Serializes (text "T" ++ reason.text ++ text "thread:" ++ decimal value ++
      text ";") := by
  have start : Plain (text "T" ++ reason.text ++ text "thread:") := by
    cases reason <;> decide
  have length : (text "T" ++ reason.text ++ text "thread:").length = 10 := by
    cases reason <;> decide
  have finish : Plain (text ";") := by decide
  have last : (text ";").length = 1 := by decide
  have number := length_decimal_le small
  apply ((start.append (plain_decimal value)).append finish).serializes_of_short
  rw [List.length_append, List.length_append, length, last]
  omega

/-- Packets of the same data are the same, and of no others. -/
theorem gdbSerialize_injective {first second serialized : List Byte}
    (one : gdbSerialize .packet (some first) = some serialized)
    (other : gdbSerialize .packet (some second) = some serialized) :
    first = second := by
  obtain ⟨_, _, written⟩ := (Message.gdbSerialize_data_iff (.inr rfl)).mp one
  obtain ⟨_, _, rewritten⟩ := (Message.gdbSerialize_data_iff (.inr rfl)).mp other
  have same := written.trans rewritten.symm
  rw [List.cons_append, List.cons_append] at same
  exact (List.append_inj' (List.cons.inj same).2 rfl).1

end Gdb

end RiscvVp
