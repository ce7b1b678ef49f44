import RiscvVp.Cipher.Feistel

/-!
# SM4 in software

`sw/sm4_sw/SM4.h`.  Arrays of four words are blocks, longer ones functions on
their indices; no index below leaves its array.
-/

namespace RiscvVp

namespace Sm4

open Feistel

abbrev Word : Type := BitVec 32

namespace Software

/-- `SM4_FK` -/
def sm4Fk : Block Word :=
  ⟨0xa3b1bac6, 0x56aa3350, 0x677d9197, 0xb27022dc⟩

/-- `SM4_CK` -/
def sm4Ck : Array Word :=
  #[
    0x00070e15, 0x1c232a31, 0x383f464d, 0x545b6269, 0x70777e85,
    0x8c939aa1, 0xa8afb6bd, 0xc4cbd2d9, 0xe0e7eef5, 0xfc030a11,
    0x181f262d, 0x343b4249, 0x50575e65, 0x6c737a81, 0x888f969d,
    0xa4abb2b9, 0xc0c7ced5, 0xdce3eaf1, 0xf8ff060d, 0x141b2229,
    0x30373e45, 0x4c535a61, 0x686f767d, 0x848b9299, 0xa0a7aeb5,
    0xbcc3cad1, 0xd8dfe6ed, 0xf4fb0209, 0x10171e25, 0x2c333a41,
    0x484f565d, 0x646b7279
  ]

/-- `SM4_Sbox` -/
def sm4Sbox : Array (BitVec 8) :=
  #[
    0xd6, 0x90, 0xe9, 0xfe, 0xcc, 0xe1, 0x3d, 0xb7, 0x16, 0xb6, 0x14, 0xc2,
    0x28, 0xfb, 0x2c, 0x05, 0x2b, 0x67, 0x9a, 0x76, 0x2a, 0xbe, 0x04, 0xc3,
    0xaa, 0x44, 0x13, 0x26, 0x49, 0x86, 0x06, 0x99, 0x9c, 0x42, 0x50, 0xf4,
    0x91, 0xef, 0x98, 0x7a, 0x33, 0x54, 0x0b, 0x43, 0xed, 0xcf, 0xac, 0x62,
    0xe4, 0xb3, 0x1c, 0xa9, 0xc9, 0x08, 0xe8, 0x95, 0x80, 0xdf, 0x94, 0xfa,
    0x75, 0x8f, 0x3f, 0xa6, 0x47, 0x07, 0xa7, 0xfc, 0xf3, 0x73, 0x17, 0xba,
    0x83, 0x59, 0x3c, 0x19, 0xe6, 0x85, 0x4f, 0xa8, 0x68, 0x6b, 0x81, 0xb2,
    0x71, 0x64, 0xda, 0x8b, 0xf8, 0xeb, 0x0f, 0x4b, 0x70, 0x56, 0x9d, 0x35,
    0x1e, 0x24, 0x0e, 0x5e, 0x63, 0x58, 0xd1, 0xa2, 0x25, 0x22, 0x7c, 0x3b,
    0x01, 0x21, 0x78, 0x87, 0xd4, 0x00, 0x46, 0x57, 0x9f, 0xd3, 0x27, 0x52,
    0x4c, 0x36, 0x02, 0xe7, 0xa0, 0xc4, 0xc8, 0x9e, 0xea, 0xbf, 0x8a, 0xd2,
    0x40, 0xc7, 0x38, 0xb5, 0xa3, 0xf7, 0xf2, 0xce, 0xf9, 0x61, 0x15, 0xa1,
    0xe0, 0xae, 0x5d, 0xa4, 0x9b, 0x34, 0x1a, 0x55, 0xad, 0x93, 0x32, 0x30,
    0xf5, 0x8c, 0xb1, 0xe3, 0x1d, 0xf6, 0xe2, 0x2e, 0x82, 0x66, 0xca, 0x60,
    0xc0, 0x29, 0x23, 0xab, 0x0d, 0x53, 0x4e, 0x6f, 0xd5, 0xdb, 0x37, 0x45,
    0xde, 0xfd, 0x8e, 0x2f, 0x03, 0xff, 0x6a, 0x72, 0x6d, 0x6c, 0x5b, 0x51,
    0x8d, 0x1b, 0xaf, 0x92, 0xbb, 0xdd, 0xbc, 0x7f, 0x11, 0xd9, 0x5c, 0x41,
    0x1f, 0x10, 0x5a, 0xd8, 0x0a, 0xc1, 0x31, 0x88, 0xa5, 0xcd, 0x7b, 0xbd,
    0x2d, 0x74, 0xd0, 0x12, 0xb8, 0xe5, 0xb4, 0xb0, 0x89, 0x69, 0x97, 0x4a,
    0x0c, 0x96, 0x77, 0x7e, 0x65, 0xb9, 0xf1, 0x09, 0xc5, 0x6e, 0xc6, 0x84,
    0x18, 0xf0, 0x7d, 0xec, 0x3a, 0xdc, 0x4d, 0x20, 0x79, 0xee, 0x5f, 0x3e,
    0xd7, 0xcb, 0x39, 0x48
  ]

/-- An element of `SM4_Sbox`, promoted. -/
def box (index : Word) : Word :=
  (sm4Sbox.getD index.toNat 0).setWidth 32

/-- `SM4_Rotl32` -/
def sm4Rotl32 (buf : Word) (n : ℕ) : Word :=
  (buf <<< n) ||| (buf >>> (32 - n))

/-- `SM4_Nonlinear` -/
def sm4Nonlinear (a : Word) : Word :=
  box ((a >>> 24) &&& 0xff) <<< 24 ||| box ((a >>> 16) &&& 0xff) <<< 16 |||
    box ((a >>> 8) &&& 0xff) <<< 8 ||| box (a &&& 0xff)

/-- `SM4_Linear` -/
def sm4Linear (b : Word) (mode : ℕ) : Word :=
  if mode = 0 then b ^^^ sm4Rotl32 b 13 ^^^ sm4Rotl32 b 23
  else if mode = 1 then
    b ^^^ sm4Rotl32 b 2 ^^^ sm4Rotl32 b 10 ^^^ sm4Rotl32 b 18 ^^^
      sm4Rotl32 b 24
  else 1

/-- The body of the loop of `SM4_KeyExp`, on `K` and `rk`. -/
def keyExpRound (arrays : (ℕ → Word) × (ℕ → Word)) (i : ℕ) :
    (ℕ → Word) × (ℕ → Word) :=
  let (k, rk) := arrays
  let tmp := k (i + 1) ^^^ k (i + 2) ^^^ k (i + 3) ^^^ sm4Ck.getD i 0
  let buf := sm4Nonlinear tmp
  let t := sm4Linear buf 0
  let k := Function.update k (i + 4) (k i ^^^ t)
  (k, Function.update rk i (k (i + 4)))

/-- `SM4_KeyExp`, from what `rk` held before. -/
def sm4KeyExp (mk : Block Word) (rk : ℕ → Word) : ℕ → Word :=
  let k : Block Word := ⟨mk.w0 ^^^ sm4Fk.w0, mk.w1 ^^^ sm4Fk.w1,
    mk.w2 ^^^ sm4Fk.w2, mk.w3 ^^^ sm4Fk.w3⟩
  ((List.range 32).foldl keyExpRound (k.get, rk)).2

/-- The body of the loops of `SM4_Encrypt` and `SM4_Decrypt`, which differ in
the round key alone. -/
def cryptRound (key : ℕ → Word) (x : ℕ → Word) (i : ℕ) : ℕ → Word :=
  let tmp := x (i + 1) ^^^ x (i + 2) ^^^ x (i + 3) ^^^ key i
  let buf := sm4Nonlinear tmp
  let t := sm4Linear buf 1
  Function.update x (i + 4) (x i ^^^ t)

def sm4Encrypt (rk : ℕ → Word) (plaintext : Block Word) : Block Word :=
  let x := (List.range 32).foldl (cryptRound fun i => rk i) plaintext.get
  ⟨x 35, x 34, x 33, x 32⟩

def sm4Decrypt (rk : ℕ → Word) (plaintext : Block Word) : Block Word :=
  let x := (List.range 32).foldl (cryptRound fun i => rk (31 - i)) plaintext.get
  ⟨x 35, x 34, x 33, x 32⟩

end Software

/-! ## The cipher -/

/-- The key schedule's round function: a constant for a key. -/
def keyRoundFunction (key first second third : Word) : Word :=
  Software.sm4Linear
    (Software.sm4Nonlinear (first ^^^ second ^^^ third ^^^ key)) 0

def dataRoundFunction (key first second third : Word) : Word :=
  Software.sm4Linear
    (Software.sm4Nonlinear (first ^^^ second ^^^ third ^^^ key)) 1

def keyConstant (round : ℕ) : Word :=
  Software.sm4Ck.getD round 0

/-- The block that the key schedule starts from. -/
def whitened (key : Block Word) : Block Word :=
  ⟨key.w0 ^^^ Software.sm4Fk.w0, key.w1 ^^^ Software.sm4Fk.w1,
    key.w2 ^^^ Software.sm4Fk.w2, key.w3 ^^^ Software.sm4Fk.w3⟩

/-- The round keys of a key. -/
def roundKey (key : Block Word) (round : ℕ) : Word :=
  word (· ^^^ ·) keyRoundFunction keyConstant (whitened key) (round + 4)

def encrypt (key block : Block Word) : Block Word :=
  crypt (· ^^^ ·) dataRoundFunction (roundKey key) 32 block

def decrypt (key block : Block Word) : Block Word :=
  crypt (· ^^^ ·) dataRoundFunction (fun round => roundKey key (31 - round)) 32
    block

theorem dataRoundFunction_symmetric (key first second third : Word) :
    dataRoundFunction key first second third =
      dataRoundFunction key third second first := by
  have swapped : first ^^^ second ^^^ third = third ^^^ second ^^^ first := by
    rw [BitVec.xor_comm third second, BitVec.xor_assoc, BitVec.xor_comm first]
  rw [dataRoundFunction, dataRoundFunction, swapped]

/-- Decryption inverts encryption. -/
theorem decrypt_encrypt (key block : Block Word) :
    decrypt key (encrypt key block) = block := by
  have cancels : ∀ value other : Word, value ^^^ other ^^^ other = value := by
    intro value other
    rw [BitVec.xor_assoc, BitVec.xor_self, BitVec.xor_zero]
  have reversed : ∀ index < 32,
      roundKey key (31 - index) = roundKey key (32 - 1 - index) := by
    intro index _
    simp only [Nat.add_one_sub_one]
  rw [decrypt, encrypt]
  exact crypt_crypt cancels dataRoundFunction_symmetric reversed block

/-! ## The software computes the cipher -/

namespace Software

theorem keyExpRound_foldl (k rk : ℕ → Word) (rounds : ℕ) :
    ((List.range rounds).foldl keyExpRound (k, rk)).1 =
        (List.range rounds).foldl
          (extend (· ^^^ ·) keyRoundFunction keyConstant) k ∧
      ∀ i < rounds,
        ((List.range rounds).foldl keyExpRound (k, rk)).2 i =
          ((List.range rounds).foldl keyExpRound (k, rk)).1 (i + 4) := by
  induction rounds with
  | zero => simp
  | succ rounds inductionHypothesis =>
      obtain ⟨schedule, keys⟩ := inductionHypothesis
      simp only [List.range_succ, List.foldl_append, List.foldl_cons,
        List.foldl_nil]
      refine ⟨?_, ?_⟩
      · rw [← schedule]
        rfl
      · intro i below
        by_cases last : i = rounds
        · subst last
          simp [keyExpRound]
        · have earlier := keys i (by omega)
          have differs : i + 4 ≠ rounds + 4 := by
            omega
          simp only [keyExpRound, Function.update_of_ne last,
            Function.update_of_ne differs]
          exact earlier

/-- The loop leaves the round keys, whatever the arrays held besides. -/
theorem keyExpRound_keys {mk : Block Word} {k : ℕ → Word}
    (first : Block.ofArray k = whitened mk) (rk : ℕ → Word) {i : ℕ}
    (below : i < 32) :
    ((List.range 32).foldl keyExpRound (k, rk)).2 i = roundKey mk i := by
  obtain ⟨schedule, keys⟩ := keyExpRound_foldl k rk 32
  have filled : Holds (· ^^^ ·) keyRoundFunction keyConstant (Block.ofArray k) 32
      ((List.range 32).foldl
        (extend (· ^^^ ·) keyRoundFunction keyConstant) k) :=
    holds_foldl keyConstant k 32
  rw [keys i below, schedule, filled (i + 4) (by omega), first, roundKey]

theorem sm4KeyExp_eq (mk : Block Word) (rk : ℕ → Word) {i : ℕ} (below : i < 32) :
    sm4KeyExp mk rk i = roundKey mk i :=
  keyExpRound_keys rfl rk below

theorem cryptRound_eq_extend (key : ℕ → Word) :
    cryptRound key = extend (· ^^^ ·) dataRoundFunction key := by
  funext x i
  rfl

/-- The loop ends with the cipher's result, whatever the array held besides. -/
theorem cryptRound_foldl (key x : ℕ → Word) :
    let filled := (List.range 32).foldl (cryptRound key) x
    (⟨filled 35, filled 34, filled 33, filled 32⟩ : Block Word) =
      crypt (· ^^^ ·) dataRoundFunction key 32 (Block.ofArray x) := by
  have holds : Holds (· ^^^ ·) dataRoundFunction key (Block.ofArray x) 32
      ((List.range 32).foldl
        (extend (· ^^^ ·) dataRoundFunction key) x) :=
    holds_foldl key x 32
  rw [cryptRound_eq_extend, crypt_eq]
  dsimp only
  rw [holds 35 (by omega), holds 34 (by omega), holds 33 (by omega),
    holds 32 (by omega)]

theorem sm4Encrypt_eq {rk : ℕ → Word} {key : Block Word}
    (keys : ∀ i < 32, rk i = roundKey key i) (block : Block Word) :
    sm4Encrypt rk block = encrypt key block := by
  have computed := cryptRound_foldl (fun i => rk i) block.get
  exact computed.trans (crypt_congr keys)

theorem sm4Decrypt_eq {rk : ℕ → Word} {key : Block Word}
    (keys : ∀ i < 32, rk i = roundKey key i) (block : Block Word) :
    sm4Decrypt rk block = decrypt key block := by
  have computed := cryptRound_foldl (fun i => rk (31 - i)) block.get
  refine computed.trans (crypt_congr fun i below => ?_)
  exact keys (31 - i) (by omega)

/-- What the software computes with a key. -/
def encryption (key block : Block Word) : Block Word :=
  sm4Encrypt (sm4KeyExp key fun _ => 0) block

def decryption (key block : Block Word) : Block Word :=
  sm4Decrypt (sm4KeyExp key fun _ => 0) block

theorem encryption_eq (key block : Block Word) :
    encryption key block = encrypt key block :=
  sm4Encrypt_eq (fun _ below => sm4KeyExp_eq key _ below) block

theorem decryption_eq (key block : Block Word) :
    decryption key block = decrypt key block :=
  sm4Decrypt_eq (fun _ below => sm4KeyExp_eq key _ below) block

end Software

end Sm4

end RiscvVp
