import Mathlib.Tactic.IntervalCases
import RiscvVp.Can.Mcp2515

/-!
# Identifiers of CAN frames

An identifier of 11 or of 29 bits, in the word of a frame of the socket and in
the four bytes of a buffer.
-/

namespace RiscvVp

namespace Mcp2515

inductive Identifier : Type
  | standard (id : BitVec 11)
  | extended (id : BitVec 29)
  deriving DecidableEq, Repr

namespace Identifier

def number : Identifier → BitVec 32
  | .standard id => id.setWidth 32
  | .extended id => id.setWidth 32

def isExtended : Identifier → Bool
  | .standard _ => false
  | .extended _ => true

/-- `can_id`, with `CAN_EFF_FLAG` -/
def canId (identifier : Identifier) : BitVec 32 :=
  identifier.number ||| if identifier.isExtended then 0x80000000 else 0

def toBuf (identifier : Identifier) : Fin 4 → Byte :=
  mcp2515IdToBuf (identifier.number.setWidth 64) identifier.isExtended

end Identifier

/-! ## Reading a buffer -/

theorem toNat_wide (byte : Byte) : (byte.setWidth 32).toNat = byte.toNat := by
  rw [BitVec.toNat_setWidth]
  exact Nat.mod_eq_of_lt (by omega)

theorem toNat_low (word : BitVec 32) :
    (word &&& 0x03).toNat = word.toNat % 4 :=
  Nat.and_two_pow_sub_one_eq_mod word.toNat 2

theorem bufToId_of_flag {idField : Fin 4 → Byte}
    (flag : idField 1 &&& 0x08 = 0x08) :
    (mcp2515BufToId idField).1.toNat =
        ((idField 0).toNat * 8 + (idField 1).toNat / 32) * 2 ^ 18 +
          (idField 1).toNat % 4 * 2 ^ 16 + (idField 2).toNat * 2 ^ 8 +
            (idField 3).toNat ∧
      (mcp2515BufToId idField).2 = true := by
  rw [mcp2515BufToId, if_pos flag]
  refine ⟨?_, rfl⟩
  simp only [BitVec.toNat_add, BitVec.toNat_shiftLeft,
    BitVec.toNat_ushiftRight, toNat_wide, toNat_low, Nat.shiftLeft_eq,
    Nat.shiftRight_eq_div_pow]
  omega

theorem bufToId_of_no_flag {idField : Fin 4 → Byte}
    (plain : idField 1 &&& 0x08 ≠ 0x08) :
    (mcp2515BufToId idField).1.toNat =
        (idField 0).toNat * 8 + (idField 1).toNat / 32 ∧
      (mcp2515BufToId idField).2 = false := by
  rw [mcp2515BufToId, if_neg plain]
  refine ⟨?_, rfl⟩
  simp only [BitVec.toNat_add, BitVec.toNat_shiftLeft,
    BitVec.toNat_ushiftRight, toNat_wide, Nat.shiftLeft_eq,
    Nat.shiftRight_eq_div_pow]
  omega

/-! ## Writing a buffer -/

/-- The second byte of an extended identifier, by the bits that it holds. -/
theorem sidl_extended : ∀ (low : BitVec 2) (middle : BitVec 3),
    (low.setWidth 8 + middle.setWidth 8 <<< 5 ||| 0x08 : Byte) &&& 0x08 =
        0x08 ∧
      (low.setWidth 8 + middle.setWidth 8 <<< 5 ||| 0x08 : Byte).toNat =
        middle.toNat * 32 + 8 + low.toNat := by
  decide

theorem low_of_high (high : BitVec 16) :
    ((high &&& 0x03).setWidth 8 : Byte) = (high.setWidth 2).setWidth 8 := by
  ext bit inside
  simp
  interval_cases bit <;> simp

theorem middle_of_high (high : BitVec 16) :
    (((high &&& 0x1c) <<< 3).setWidth 8 : Byte) =
      ((high >>> 2).setWidth 3).setWidth 8 <<< 5 := by
  ext bit inside
  simp
  interval_cases bit <;> simp

theorem bufToId_extended (id : BitVec 29) :
    mcp2515BufToId (Identifier.extended id).toBuf =
      (id.setWidth 32, true) := by
  let whole : BitVec 64 := (id.setWidth 32).setWidth 64
  let high : BitVec 16 := (whole >>> 16).setWidth 16
  let canid : BitVec 16 := whole.setWidth 16
  have bound := id.isLt
  have toNat_whole : whole.toNat = id.toNat := by
    simp only [whole, BitVec.toNat_setWidth]
    omega
  have toNat_high : high.toNat = id.toNat / 2 ^ 16 := by
    simp only [high, BitVec.toNat_setWidth, BitVec.toNat_ushiftRight,
      toNat_whole, Nat.shiftRight_eq_div_pow]
    omega
  have toNat_canid : canid.toNat = id.toNat % 2 ^ 16 := by
    simp only [canid, BitVec.toNat_setWidth, toNat_whole]
  obtain ⟨flag, sidl⟩ := sidl_extended (high.setWidth 2)
    ((high >>> 2).setWidth 3)
  rw [← low_of_high, ← middle_of_high] at flag sidl
  obtain ⟨number, extended⟩ := bufToId_of_flag
    (show (Identifier.extended id).toBuf 1 &&& 0x08 = 0x08 from flag)
  refine Prod.ext (BitVec.eq_of_toNat_eq ?_) extended
  have sidh : ((Identifier.extended id).toBuf 0).toNat =
      ((high >>> 5).setWidth 8).toNat := rfl
  have eid8 : ((Identifier.extended id).toBuf 2).toNat =
      ((canid >>> 8).setWidth 8).toNat := rfl
  have eid0 : ((Identifier.extended id).toBuf 3).toNat =
      ((canid &&& 0xff).setWidth 8).toNat := rfl
  have masked : (canid &&& 0xff).toNat = canid.toNat % 2 ^ 8 :=
    Nat.and_two_pow_sub_one_eq_mod canid.toNat 8
  rw [number, sidh, eid8, eid0]
  have second : ((Identifier.extended id).toBuf 1).toNat = _ := sidl
  rw [second]
  simp only [BitVec.toNat_setWidth, BitVec.toNat_ushiftRight, masked,
    toNat_high, toNat_canid, Nat.shiftRight_eq_div_pow]
  omega

/-- An identifier that is written as a standard one has no flag. -/
theorem no_flag_of_standard (id : BitVec 64) :
    mcp2515IdToBuf id false 1 &&& 0x08 ≠ 0x08 := by
  have clear : (((id.setWidth 16 &&& 0x07) <<< 5).setWidth 8 : Byte) &&& 0x08 =
      0 := by
    ext bit inside
    simp
    interval_cases bit <;> simp
  intro flag
  have both := clear.symm.trans flag
  exact absurd both (by decide)

theorem bufToId_standard (id : BitVec 11) :
    mcp2515BufToId (Identifier.standard id).toBuf =
      (id.setWidth 32, false) := by
  let whole : BitVec 64 := (id.setWidth 32).setWidth 64
  let canid : BitVec 16 := whole.setWidth 16
  have bound := id.isLt
  have toNat_canid : canid.toNat = id.toNat := by
    simp only [canid, whole, BitVec.toNat_setWidth]
    omega
  obtain ⟨number, standard⟩ := bufToId_of_no_flag (no_flag_of_standard whole)
  refine Prod.ext (BitVec.eq_of_toNat_eq ?_) standard
  have sidh : (mcp2515IdToBuf whole false 0).toNat =
      ((canid >>> 3).setWidth 8).toNat := rfl
  have sidl : (mcp2515IdToBuf whole false 1).toNat =
      (((canid &&& 0x07) <<< 5).setWidth 8).toNat := rfl
  have masked : (canid &&& 0x07).toNat = canid.toNat % 2 ^ 3 :=
    Nat.and_two_pow_sub_one_eq_mod canid.toNat 3
  rw [sidh, sidl] at number
  simp only [BitVec.toNat_setWidth, BitVec.toNat_ushiftRight,
    BitVec.toNat_shiftLeft, masked, toNat_canid, Nat.shiftRight_eq_div_pow,
    Nat.shiftLeft_eq] at number
  have same : (mcp2515BufToId (Identifier.standard id).toBuf).1.toNat = _ :=
    number
  rw [same, BitVec.toNat_setWidth]
  omega

/-- Every identifier is read as it has been written. -/
theorem bufToId_toBuf (identifier : Identifier) :
    mcp2515BufToId identifier.toBuf =
      (identifier.number, identifier.isExtended) := by
  cases identifier with
  | standard id => exact bufToId_standard id
  | extended id => exact bufToId_extended id

end Mcp2515

end RiscvVp
