import Mathlib
import RiscvVp.Sm3.Message

/-!
# The padding of the software

The buffer holds the message, the byte `0x80`, zeros and the length.  It is the
padding of the standard when no byte too many makes a further block and when the
length in bits fits into 32 bits.
-/

namespace RiscvVp

namespace Sm3

open Padding

/-! ## The buffer -/

theorem store_eq_some {buffer : List Byte} {index : ℕ}
    (inside : index < buffer.length) (value : Byte) :
    store buffer index value = some (buffer.set index value) :=
  if_pos inside

/-- The loop that stores the bytes of the length, the last one first. -/
theorem foldlM_store {buffer : List Byte} {index : ℕ → ℕ} (value : ℕ → Byte)
    {count : ℕ} (fits : count ≤ buffer.length)
    (places : ∀ i < count, index i = buffer.length - 1 - i) :
    (List.range count).foldlM
        (fun buffer i => store buffer (index i) (value i)) buffer =
      some (buffer.take (buffer.length - count) ++
        ((List.range count).map value).reverse) := by
  induction count with
  | zero => simp
  | succ count inductionHypothesis =>
      have earlier := inductionHypothesis (Nat.le_of_succ_le fits)
        fun i below => places i (Nat.lt_succ_of_lt below)
      have length : (buffer.take (buffer.length - count)).length =
          buffer.length - count := by
        rw [List.length_take]
        omega
      have place : index count = buffer.length - (count + 1) := by
        rw [places count (Nat.lt_succ_self count)]
        omega
      have inside : index count <
          (buffer.take (buffer.length - count)).length := by
        omega
      have last : (buffer.take (buffer.length - count)).set (index count)
          (value count) =
            buffer.take (buffer.length - (count + 1)) ++ [value count] := by
        have final : (buffer.take (buffer.length - count)).drop
            (index count + 1) = [] :=
          List.drop_eq_nil_of_le (by omega)
        rw [List.set_eq_take_append_cons_drop, if_pos inside, final,
          List.take_take, place, Nat.min_eq_left (by omega)]
      rw [List.range_succ, List.foldlM_append, earlier, Option.bind_eq_bind,
        Option.bind_some, List.foldlM_cons,
        store_eq_some (by rw [List.length_append]; omega),
        Option.bind_eq_bind, Option.bind_some, List.set_append_left _ _ inside,
        last, List.map_append, List.reverse_append, List.append_assoc]
      rfl

section Buffer

variable (message : Message)

/-- `num` and the size of the buffer, which does not wrap again. -/
theorem toNat_blockCount :
    (blockCount message.len).toNat =
        (message.bytes.length + 73) % 2 ^ 32 / 64 ∧
      (blockCount message.len * 64).toNat =
        (message.bytes.length + 73) % 2 ^ 32 / 64 * 64 := by
  have count : (blockCount message.len).toNat =
      (message.bytes.length + 73) % 2 ^ 32 / 64 := by
    rw [blockCount, BitVec.toNat_udiv, BitVec.toNat_add, BitVec.toNat_add,
      BitVec.toNat_add, message.toNat_len]
    change (((message.bytes.length + 1) % 2 ^ 32 + 8) % 2 ^ 32 + 64) % 2 ^ 32 /
      64 = _
    omega
  refine ⟨count, ?_⟩
  rw [BitVec.toNat_mul, count]
  change _ / 64 * 64 % 2 ^ 32 = _
  omega

/-- The number of zero bytes in the buffer. -/
def zeroBytes (length : ℕ) : ℕ := (length + 73) / 64 * 64 - length - 9

/-- The length as the loop stores it. -/
def lengthBytes (messageLen : Word) : List Byte :=
  ((List.range 8).map (lengthByte messageLen)).reverse

theorem lengthBytes_eq (messageLen : Word) :
    lengthBytes messageLen = numberBytes 8 (messageLen * 8).toNat := by
  have byte : ∀ i, lengthByte messageLen i =
      BitVec.ofNat 8 ((messageLen * 8).toNat >>> (8 * i)) := by
    intro i
    apply BitVec.eq_of_toNat_eq
    have small : (messageLen * 8).toNat < 2 ^ 64 :=
      Nat.lt_trans (BitVec.isLt _) (by decide)
    rw [lengthByte, BitVec.toNat_setWidth, BitVec.toNat_ushiftRight,
      BitVec.toNat_setWidth, Nat.mod_eq_of_lt small, BitVec.toNat_ofNat,
      Nat.mul_comm]
  simp [lengthBytes, numberBytes, List.range_succ, byte]

theorem messageBuf_eq (room : message.bytes.length + 73 < 2 ^ 32) :
    messageBuf message = some (message.bytes ++ 0x80 ::
      (List.replicate (zeroBytes message.bytes.length) 0 ++
        lengthBytes message.len)) := by
  obtain ⟨_, size⟩ := toNat_blockCount message
  rw [Nat.mod_eq_of_lt room] at size
  have copied : memcpy (List.replicate (blockCount message.len * 64).toNat 0)
      message.bytes = some (message.bytes ++
        List.replicate (zeroBytes message.bytes.length + 9) 0) := by
    have fits : message.bytes.length ≤
        (List.replicate (blockCount message.len * 64).toNat (0 : Byte)).length := by
      rw [List.length_replicate, size]
      omega
    have remains : (blockCount message.len * 64).toNat - message.bytes.length =
        zeroBytes message.bytes.length + 9 := by
      rw [size, zeroBytes]
      omega
    rw [memcpy, if_pos fits, List.drop_replicate, remains]
  have marked : store (message.bytes ++
      List.replicate (zeroBytes message.bytes.length + 9) 0) message.len.toNat
      0x80 = some (message.bytes ++
        0x80 :: List.replicate (zeroBytes message.bytes.length + 8) 0) := by
    have inside : message.len.toNat < (message.bytes ++ List.replicate
        (zeroBytes message.bytes.length + 9) (0 : Byte)).length := by
      rw [message.toNat_len, List.length_append, List.length_replicate]
      omega
    rw [store_eq_some inside, message.toNat_len,
      List.set_append_right _ _ (Nat.le_refl _), Nat.sub_self]
    rfl
  generalize buffer_eq : message.bytes ++
    0x80 :: List.replicate (zeroBytes message.bytes.length + 8) 0 = buffer at marked
  have length : buffer.length = (blockCount message.len * 64).toNat := by
    rw [← buffer_eq, List.length_append, List.length_cons, List.length_replicate,
      size, zeroBytes]
    omega
  have ended : buffer.take (buffer.length - 8) = message.bytes ++
      0x80 :: List.replicate (zeroBytes message.bytes.length) 0 := by
    have split : buffer = (message.bytes ++
        0x80 :: List.replicate (zeroBytes message.bytes.length) 0) ++
          List.replicate 8 0 := by
      rw [← buffer_eq, List.append_assoc, List.cons_append,
        List.replicate_append_replicate]
    rw [split]
    apply List.take_left'
    simp only [List.length_append, List.length_cons, List.length_replicate]
    omega
  have places : ∀ i < 8,
      (blockCount message.len * 64 - BitVec.ofNat 32 i - 1).toNat =
        buffer.length - 1 - i := by
    intro i below
    have bound := (blockCount message.len * 64).isLt
    have large : 64 ≤ (blockCount message.len * 64).toNat := by
      rw [size]
      omega
    rw [length, BitVec.toNat_sub, BitVec.toNat_sub, BitVec.toNat_ofNat]
    change (2 ^ 32 - 1 + _) % 2 ^ 32 = _
    omega
  have loop := foldlM_store (lengthByte message.len) (by rw [length, size]; omega)
    places
  rw [messageBuf, copied, Option.bind_eq_bind, Option.bind_some, marked,
    Option.bind_some, loop, ended, ← lengthBytes]
  simp

theorem messageBuf_of_wraps (wraps : 2 ^ 32 ≤ message.bytes.length + 73) :
    messageBuf message = none := by
  have bound := message.fits
  obtain ⟨_, size⟩ := toNat_blockCount message
  have long : ¬ message.bytes.length ≤
      (List.replicate (blockCount message.len * 64).toNat (0 : Byte)).length := by
    rw [List.length_replicate, size]
    omega
  simp only [messageBuf, memcpy, if_neg long]
  rfl

end Buffer

/-- The blocks hold the buffer, byte after byte. -/
theorem flatMap_blocks (buffer : List Byte) {num : ℕ}
    (fits : 64 * num ≤ buffer.length) :
    (blocks num buffer).flatMap Vector.toList = buffer.take (64 * num) := by
  induction num with
  | zero => rfl
  | succ num inductionHypothesis =>
      have earlier : (blocks num buffer).flatMap Vector.toList =
          buffer.take (64 * num) :=
        inductionHypothesis (by omega)
      have last : (Vector.ofFn fun k : Fin 64 =>
          buffer.getD (num * 64 + k) 0).toList =
            (buffer.drop (64 * num)).take 64 := by
        apply List.ext_getElem
        · simp
          omega
        · intro k first second
          rw [List.length_take, List.length_drop] at second
          have inside : num * 64 + k < buffer.length := by omega
          simp [Nat.mul_comm, inside]
      rw [blocks, List.range_succ, List.map_append, List.flatMap_append,
        ← blocks, earlier, Nat.mul_succ, List.take_add, ← last]
      simp

/-! ## The standard's padding -/

/-- The zero bytes of the standard. -/
theorem padBytes_eq (message : List Byte) :
    padBytes 64 8 message = message ++ 0x80 ::
      (List.replicate ((119 - message.length % 64) % 64) 0 ++
        numberBytes 8 (8 * message.length)) := by
  have zeros : fillers (8 * 64) (8 * 8) (8 * message.length) / 8 =
      (119 - message.length % 64) % 64 := by
    rw [fillers]
    omega
  rw [padBytes, zeros]

/-- The buffer is the padded message when its last block is needed and the
length in bits is that of the message. -/
theorem buffer_eq_iff (message : Message)
    (room : message.bytes.length + 73 < 2 ^ 32) :
    message.bytes ++ 0x80 :: (List.replicate (zeroBytes message.bytes.length) 0 ++
        lengthBytes message.len) = padBytes 64 8 message.bytes ↔
      message.bytes.length % 64 ≠ 55 ∧ message.bytes.length < 2 ^ 29 := by
  have product : (message.len * 8).toNat = 8 * message.bytes.length % 2 ^ 32 := by
    rw [BitVec.toNat_mul, message.toNat_len, Nat.mul_comm]
    rfl
  have zeros : zeroBytes message.bytes.length =
      (119 - message.bytes.length % 64) % 64 ↔
        message.bytes.length % 64 ≠ 55 := by
    rw [zeroBytes]
    omega
  rw [padBytes_eq, lengthBytes_eq, List.append_right_inj, List.cons_inj_right,
    product]
  constructor
  · intro same
    obtain ⟨fill, field⟩ := List.append_inj' same (by simp)
    have count := congrArg List.length fill
    rw [List.length_replicate, List.length_replicate] at count
    have number := numberBytes_injective
      (Nat.lt_trans (Nat.mod_lt _ (by decide)) (by decide)) (by omega) field
    exact ⟨zeros.mp count, by omega⟩
  · intro ⟨needed, short⟩
    have number : 8 * message.bytes.length % 2 ^ 32 = 8 * message.bytes.length :=
      Nat.mod_eq_of_lt (by omega)
    rw [zeros.mpr needed, number]

/-- The blocks that are hashed hold the padded message exactly when both
differences do not show. -/
theorem messageBlocks_iff (message : Message) :
    (∃ hashed, messageBlocks message = some hashed ∧
        Standard.blockBits hashed = pad 512 64 (bits message.bytes)) ↔
      message.bytes.length % 64 ≠ 55 ∧ message.bytes.length < 2 ^ 29 := by
  by_cases room : message.bytes.length + 73 < 2 ^ 32
  · obtain ⟨count, _⟩ := toNat_blockCount message
    rw [Nat.mod_eq_of_lt room] at count
    generalize buffer_eq : message.bytes ++
      0x80 :: (List.replicate (zeroBytes message.bytes.length) 0 ++
        lengthBytes message.len) = buffer
    have filled : messageBuf message = some buffer := by
      rw [messageBuf_eq message room, buffer_eq]
    have length : buffer.length = 64 * (blockCount message.len).toNat := by
      rw [← buffer_eq, count, lengthBytes_eq]
      simp only [List.length_append, List.length_cons, List.length_replicate,
        length_numberBytes, zeroBytes]
      omega
    have held : Standard.blockBits (blocks (blockCount message.len).toNat buffer) =
        bits buffer := by
      rw [Standard.blockBits, flatMap_blocks buffer (Nat.le_of_eq length.symm),
        ← length, List.take_length]
    have standard := bits_padBytes (show 0 < 64 by decide) 8 message.bytes
    rw [messageBlocks, filled, Option.map_some, ← buffer_eq_iff message room,
      buffer_eq]
    constructor
    · intro ⟨hashed, same, padded⟩
      cases same
      rw [held, ← standard] at padded
      exact bits_injective padded
    · intro same
      refine ⟨_, rfl, ?_⟩
      rw [held, same, standard]
  · have wraps := Nat.le_of_not_lt room
    have nothing : messageBlocks message = none := by
      rw [messageBlocks, messageBuf_of_wraps message wraps, Option.map_none]
    rw [nothing]
    refine iff_of_false nofun fun ⟨_, short⟩ => ?_
    omega

/-- A function hashes the message as the standard does. -/
def Digests (function : Message → Option Chain) (message : Message) : Prop :=
  ∃ digest, function message = some digest ∧
    Standard.IsDigest (bits message.bytes) digest

/-- What is expected of the two functions. -/
structure HashesStandard (message : Message) : Prop where
  padded : ∃ hashed, messageBlocks message = some hashed ∧
    Standard.blockBits hashed = pad 512 64 (bits message.bytes)
  software : Digests sm3Message message
  nice : Digests sm3Nice message

/-- The functions hash a message as the standard does when it is not 55 bytes
longer than whole blocks and its length in bits fits into 32 bits. -/
theorem hashesStandard_iff (message : Message) :
    HashesStandard message ↔
      message.bytes.length % 64 ≠ 55 ∧ message.bytes.length < 2 ^ 29 := by
  rw [← messageBlocks_iff]
  constructor
  · exact HashesStandard.padded
  · intro ⟨hashed, filled, padded⟩
    have digest : Standard.IsDigest (bits message.bytes) (Software.sm3 hashed) :=
      ⟨hashed, padded, Software.sm3_eq_standard hashed⟩
    constructor
    · exact ⟨hashed, filled, padded⟩
    · exact ⟨_, congrArg (Option.map Software.sm3) filled, digest⟩
    · rw [Digests, sm3Nice, sm3_nice_eq, filled]
      exact ⟨_, rfl, digest⟩

/-- A message of 55 bytes is padded to two blocks. -/
theorem not_hashesStandard :
    ¬ ∀ message : Message, HashesStandard message := by
  intro always
  have holds := always ⟨List.replicate 55 0, by decide⟩
  exact absurd ((messageBlocks_iff _).mp holds.padded).1 (by decide)

end Sm3

end RiscvVp
