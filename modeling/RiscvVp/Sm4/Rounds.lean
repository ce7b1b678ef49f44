import Mathlib
import RiscvVp.Sm4.Settle

/-!
# The rounds of the core

The core's round is the software's, and a round at an edge extends the array
of the key schedule or of the cipher by one word.
-/

namespace RiscvVp

namespace Sm4

open Feistel

/-! ## The round function -/

theorem sbox_eq : sbox = Software.sm4Sbox :=
  rfl

theorem fk_eq : fk = Software.sm4Fk :=
  rfl

/-- The two halves of a rotation have no bit in common. -/
theorem shift_eq_sm4Rotl32 (data : Word) (length : ℕ) :
    shift data length = Software.sm4Rotl32 data length := by
  ext bit below
  simp only [shift, Software.sm4Rotl32, BitVec.getElem_xor, BitVec.getElem_or,
    BitVec.getElem_shiftLeft, BitVec.getElem_ushiftRight]
  by_cases low : bit < length
  · simp [low]
  · have beyond : data.getLsbD (32 - length + bit) = false := by
      apply BitVec.getLsbD_of_ge
      omega
    simp [beyond]

theorem append_eq_or (first second third fourth : BitVec 8) :
    (first ++ second ++ third ++ fourth : Word) =
      first.setWidth 32 <<< 24 ||| second.setWidth 32 <<< 16 |||
        third.setWidth 32 <<< 8 ||| fourth.setWidth 32 := by
  ext bit below
  simp only [BitVec.getElem_append, BitVec.getElem_or, BitVec.getElem_shiftLeft,
    BitVec.getElem_setWidth]
  grind

theorem box_eq_substitute (input : Word) (start : ℕ) :
    Software.box ((input >>> start) &&& 0xff) =
      (substitute (input.extractLsb' start 8)).setWidth 32 := by
  have index : ((input >>> start) &&& 0xff).toNat =
      (input.extractLsb' start 8).toNat := by
    have mask : (0xff : Word).toNat = 2 ^ 8 - 1 := rfl
    rw [BitVec.toNat_and, mask, Nat.and_two_pow_sub_one_eq_mod,
      BitVec.toNat_ushiftRight, BitVec.extractLsb'_toNat]
  rw [Software.box, substitute, index, sbox_eq]

theorem roundF_eq (input : Word) (mode : Bool) :
    roundF input mode = Software.sm4Linear (Software.sm4Nonlinear input)
      (if mode then 0 else 1) := by
  have bytes : (substitute (input.extractLsb' 24 8) ++
      substitute (input.extractLsb' 16 8) ++
      substitute (input.extractLsb' 8 8) ++
      substitute (input.extractLsb' 0 8) : Word) =
        Software.sm4Nonlinear input := by
    have last : input &&& (0xff : Word) = (input >>> 0) &&& (0xff : Word) := by
      rw [BitVec.ushiftRight_zero]
    rw [append_eq_or, Software.sm4Nonlinear, last]
    simp only [box_eq_substitute]
  cases mode with
  | true =>
      simp only [roundF, bytes, if_true, Software.sm4Linear]
      rw [shift_eq_sm4Rotl32, shift_eq_sm4Rotl32]
  | false =>
      simp only [roundF, bytes, Bool.false_eq_true, if_false, Software.sm4Linear,
        Nat.one_ne_zero, if_true]
      rw [shift_eq_sm4Rotl32, shift_eq_sm4Rotl32, shift_eq_sm4Rotl32,
        shift_eq_sm4Rotl32]

/-! ## Signals of four words -/

theorem ranges_concat (block : Block Word) : ranges (concat block) = block := by
  obtain ⟨w0, w1, w2, w3⟩ := block
  simp only [ranges, concat, Block.mk.injEq]
  refine ⟨?_, ?_, ?_, ?_⟩ <;> (ext bit below; simp; grind)

/-! ## Extending an array -/

theorem extendArray_eq (array : ℕ → Word) (index : ℕ) (constant : Word)
    (mode : Bool) :
    extendArray array index constant mode =
      if index < 32 then
        some (Function.update array (index + 4)
          (array index ^^^ roundF (array (index + 1) ^^^ array (index + 2) ^^^
            array (index + 3) ^^^ constant) mode))
      else none := by
  by_cases within : index < 32
  · have first : index < 36 := by omega
    have second : index + 1 < 36 := by omega
    have third : index + 2 < 36 := by omega
    have fourth : index + 3 < 36 := by omega
    have fifth : index + 4 < 36 := by omega
    simp [extendArray, element, store, within, first, second, third, fourth,
      fifth]
  · have fifth : ¬ index + 4 < 36 := by omega
    simp only [extendArray, element, store, if_neg fifth, if_neg within]
    split_ifs <;> rfl

/-- The key of a round, in the order of the mode. -/
def scheduled (mode : Bool) (rk : ℕ → Word) (j : ℕ) : Word :=
  if mode then rk (j + 4) else rk (35 - j)

/-- `rk` after a round of the key schedule. -/
def keyRound (now : Signals) (core : Core) : ℕ → Word :=
  extend (· ^^^ ·) keyRoundFunction keyConstant
    (load core.rk (initialKeys now.key)) core.i

/-- `X` after a round of the cipher, under the round keys of `rk`. -/
def cryptRound (now : Signals) (rk : ℕ → Word) (core : Core) : ℕ → Word :=
  extend (· ^^^ ·) dataRoundFunction (scheduled now.mode rk)
    (load core.x (ranges now.data)) core.j

/-- `data_finish` -/
def finished (x : ℕ → Word) : Block Word :=
  ⟨x 35, x 34, x 33, x 32⟩

/-- `KeyExp` at an edge where it is enabled. -/
theorem keyStep_enabled {now : Signals} (core : Core)
    (running : now.coreRst = true) (enabled : now.keyExpEn = true) :
    keyStep now core =
      if core.i < 32 then
        some (core.i + 1 = 32 || now.rkReady, core.i + 1, keyRound now core)
      else none := by
  by_cases within : core.i < 32
  · simp only [keyStep, running, enabled, element, within, if_true,
      extendArray_eq, roundF_eq, Bool.not_true, Bool.false_eq_true, if_false,
      Option.bind_eq_bind, Option.bind_some]
    rfl
  · simp [keyStep, running, enabled, element, within]

theorem roundKeyAt_eq (mode : Bool) (rk : ℕ → Word) {j : ℕ} (within : j < 32) :
    roundKeyAt mode rk j = some (scheduled mode rk j) := by
  have fourth : j + 4 < 36 := by omega
  have least : j ≤ 35 := by omega
  have below : 35 - j < 36 := by omega
  cases mode <;> simp [roundKeyAt, scheduled, element, difference, *]

/-- `EncDec` at an edge where it is enabled. -/
theorem cryptStep_enabled {now : Signals} (rk : ℕ → Word) (core : Core)
    (running : now.coreRst = true) (enabled : now.encDecEn = true) :
    cryptStep now rk core =
      if core.j < 32 then
        let x := cryptRound now rk core
        let last := decide (core.j + 1 = 32)
        some {
          encdataReady := last && now.mode || now.encdataReady
          decdataReady := last && !now.mode || now.decdataReady
          dataOut :=
            if last then concat (finished x) else now.dataOut
          j := if last && now.mode then 0 else core.j + 1
          x := x }
      else none := by
  by_cases within : core.j < 32
  · simp only [cryptStep, running, enabled, within, if_true, extendArray_eq,
      roundKeyAt_eq now.mode rk within, roundF_eq, Bool.not_true,
      Bool.false_eq_true, if_false, Option.bind_eq_bind, Option.bind_some]
    rfl
  · simp only [cryptStep, running, enabled, extendArray_eq, if_neg within,
      Bool.not_true, Bool.false_eq_true, if_false, if_true]
    cases roundKeyAt now.mode rk core.j <;> rfl

theorem keyStep_idle {now : Signals} (core : Core)
    (running : now.coreRst = true) (disabled : now.keyExpEn = false) :
    keyStep now core = some (now.rkReady, core.i, core.rk) := by
  simp [keyStep, running, disabled]

theorem cryptStep_idle {now : Signals} (rk : ℕ → Word) (core : Core)
    (running : now.coreRst = true) (disabled : now.encDecEn = false) :
    cryptStep now rk core =
      some ⟨now.encdataReady, now.decdataReady, now.dataOut, core.j, core.x⟩ := by
  simp [cryptStep, running, disabled]

/-! ## What an edge can do -/

/-- What `KeyExp` does at an edge while the core is running. -/
inductive Keyed (now : Signals) (core : Core) : Bool → ℕ → (ℕ → Word) → Prop
  | idle (disabled : now.keyExpEn = false) :
      Keyed now core now.rkReady core.i core.rk
  | round (enabled : now.keyExpEn = true) (early : core.i < 31) :
      Keyed now core now.rkReady (core.i + 1) (keyRound now core)
  | last (enabled : now.keyExpEn = true) (end_eq : core.i = 31) :
      Keyed now core true 32 (keyRound now core)

/-- What `EncDec` does at an edge while the core is running. -/
inductive Ciphered (now : Signals) (rk : ℕ → Word) (core : Core) : Crypted → Prop
  | idle (disabled : now.encDecEn = false) :
      Ciphered now rk core
        ⟨now.encdataReady, now.decdataReady, now.dataOut, core.j, core.x⟩
  | round (enabled : now.encDecEn = true) (early : core.j < 31) :
      Ciphered now rk core
        ⟨now.encdataReady, now.decdataReady, now.dataOut, core.j + 1,
          cryptRound now rk core⟩
  | encrypted (enabled : now.encDecEn = true) (mode : now.mode = true)
      (end_eq : core.j = 31) :
      Ciphered now rk core
        ⟨true, now.decdataReady, concat (finished (cryptRound now rk core)), 0,
          cryptRound now rk core⟩
  | decrypted (enabled : now.encDecEn = true) (mode : now.mode = false)
      (end_eq : core.j = 31) :
      Ciphered now rk core
        ⟨now.encdataReady, true, concat (finished (cryptRound now rk core)), 32,
          cryptRound now rk core⟩

theorem keyed_of_keyStep {now : Signals} {core : Core} {rkReady : Bool} {i : ℕ}
    {rk : ℕ → Word} (running : now.coreRst = true)
    (stepped : keyStep now core = some (rkReady, i, rk)) :
    Keyed now core rkReady i rk := by
  cases enabled : now.keyExpEn with
  | false =>
      rw [keyStep_idle core running enabled] at stepped
      cases stepped
      exact .idle enabled
  | true =>
      rw [keyStep_enabled core running enabled] at stepped
      split_ifs at stepped with within
      by_cases end_eq : core.i = 31
      · have last : core.i + 1 = 32 := by omega
        simp only [last, decide_true, Bool.true_or] at stepped
        cases stepped
        exact .last enabled end_eq
      · have early : core.i < 31 := by omega
        have more : ¬ core.i + 1 = 32 := by omega
        simp only [more, decide_false, Bool.false_or] at stepped
        cases stepped
        exact .round enabled early

theorem ciphered_of_cryptStep {now : Signals} {rk : ℕ → Word} {core : Core}
    {crypted : Crypted} (running : now.coreRst = true)
    (stepped : cryptStep now rk core = some crypted) :
    Ciphered now rk core crypted := by
  cases enabled : now.encDecEn with
  | false =>
      rw [cryptStep_idle rk core running enabled] at stepped
      cases stepped
      exact .idle enabled
  | true =>
      rw [cryptStep_enabled rk core running enabled] at stepped
      split_ifs at stepped with within
      by_cases end_eq : core.j = 31
      · have last : core.j + 1 = 32 := by omega
        cases mode : now.mode with
        | true =>
            simp only [last, mode, decide_true, Bool.true_and, Bool.not_true,
              Bool.true_or, Bool.false_or, if_true] at stepped
            cases stepped
            exact .encrypted enabled mode end_eq
        | false =>
            simp only [last, mode, decide_true, Bool.and_false, Bool.not_false,
              Bool.true_and, Bool.true_or, Bool.false_or, if_true,
              Bool.false_eq_true, if_false] at stepped
            cases stepped
            exact .decrypted enabled mode end_eq
      · have early : core.j < 31 := by omega
        have more : ¬ core.j + 1 = 32 := by omega
        simp only [more, decide_false, Bool.false_and, Bool.false_or,
          Bool.false_eq_true, if_false] at stepped
        cases stepped
        exact .round enabled early

/-! ## What the arrays hold -/

/-- `rk` holds the first round keys of a key. -/
def Expanded (key : Block Word) (rounds : ℕ) (rk : ℕ → Word) : Prop :=
  Computed (· ^^^ ·) keyRoundFunction keyConstant (whitened key) rounds rk

/-- The round keys in the order of the mode. -/
def modeKey (mode : Bool) (key : Block Word) (round : ℕ) : Word :=
  if mode then roundKey key round else roundKey key (31 - round)

/-- `X` holds the first words of a cipher. -/
def Enciphered (mode : Bool) (key block : Block Word) (rounds : ℕ)
    (x : ℕ → Word) : Prop :=
  Computed (· ^^^ ·) dataRoundFunction (modeKey mode key) block rounds x

/-- What an encryption or a decryption is to end with. -/
def outcome (mode : Bool) (key block : Block Word) : Block Word :=
  if mode then encrypt key block else decrypt key block

/-- A signal still agrees with a block in the words that the rounds from this
one on read from it. -/
def Agrees (value : BitVec 128) (block : Block Word) (round : ℕ) : Prop :=
  ∀ index < 4, round ≤ index → (ranges value).get index = block.get index

theorem agrees_concat (block : Block Word) (round : ℕ) :
    Agrees (concat block) block round := by
  intro index _ _
  rw [ranges_concat]

theorem Expanded.roundKey {key : Block Word} {rounds : ℕ} {rk : ℕ → Word}
    (expanded : Expanded key rounds rk) {round : ℕ} (below : round < rounds) :
    rk (round + 4) = roundKey key round :=
  expanded round below

theorem load_of_first (array : ℕ → Word) (block : Block Word) {index : ℕ}
    (first : index < 4) : load array block index = block.get index := by
  rw [load, if_pos first]

theorem load_of_later (array : ℕ → Word) (block : Block Word) (index : ℕ) :
    array (index + 4) = load array block (index + 4) := by
  have later : ¬ index + 4 < 4 := by omega
  rw [load, if_neg later]

theorem initialKeys_get {value : BitVec 128} {key : Block Word} {index : ℕ}
    (first : index < 4) (same : (ranges value).get index = key.get index) :
    (initialKeys value).get index = (whitened key).get index := by
  rw [initialKeys, whitened, ← fk_eq]
  match index, first with
  | 0, _ => exact congrArg (· ^^^ fk.w0) same
  | 1, _ => exact congrArg (· ^^^ fk.w1) same
  | 2, _ => exact congrArg (· ^^^ fk.w2) same
  | 3, _ => exact congrArg (· ^^^ fk.w3) same

theorem Expanded.keyRound {now : Signals} {core : Core} {key : Block Word}
    (expanded : Expanded key core.i core.rk) (agrees : Agrees now.key key core.i) :
    Expanded key (core.i + 1) (keyRound now core) := by
  have loaded : Expanded key core.i (load core.rk (initialKeys now.key)) :=
    computed_congr (load_of_later core.rk (initialKeys now.key)) expanded
  refine computed_extend loaded (fun index first least => ?_) rfl
  rw [load_of_first _ _ first]
  exact initialKeys_get first (agrees index first least)

/-- The key schedule stays right at every edge. -/
theorem Expanded.keyed {now : Signals} {core : Core} {key : Block Word}
    {rkReady : Bool} {i : ℕ} {rk : ℕ → Word}
    (expanded : Expanded key core.i core.rk)
    (agrees : now.keyExpEn = true → Agrees now.key key core.i)
    (keyed : Keyed now core rkReady i rk) : Expanded key i rk := by
  cases keyed with
  | idle disabled => exact expanded
  | round enabled early => exact expanded.keyRound (agrees enabled)
  | last enabled end_eq =>
      have extended := expanded.keyRound (agrees enabled)
      rwa [end_eq] at extended

/-- A round of an encryption needs its own key, one of a decryption needs all. -/
theorem scheduled_eq {mode : Bool} {key : Block Word} {rounds round : ℕ}
    {rk : ℕ → Word} (expanded : Expanded key rounds rk) (early : round < 32)
    (forward : mode = true → round < rounds)
    (backward : mode = false → 32 ≤ rounds) :
    scheduled mode rk round = modeKey mode key round := by
  cases mode with
  | true => exact expanded.roundKey (forward rfl)
  | false =>
      have all := backward rfl
      have index : 35 - round = 31 - round + 4 := by omega
      have below : 31 - round < rounds := by omega
      have found := expanded.roundKey below
      simp only [scheduled, modeKey, Bool.false_eq_true, if_false]
      rw [index, found]

theorem Enciphered.cryptRound {now : Signals} {core : Core} {rk : ℕ → Word}
    {mode : Bool} {key block : Block Word}
    (enciphered : Enciphered mode key block core.j core.x)
    (agrees : Agrees now.data block core.j)
    (keys : scheduled now.mode rk core.j = modeKey mode key core.j) :
    Enciphered mode key block (core.j + 1) (cryptRound now rk core) := by
  have loaded : Enciphered mode key block core.j (load core.x (ranges now.data)) :=
    computed_congr (load_of_later core.x (ranges now.data)) enciphered
  refine computed_extend loaded (fun index first least => ?_) keys
  rw [load_of_first _ _ first]
  exact agrees index first least

theorem Enciphered.finished {mode : Bool} {key block : Block Word}
    {x : ℕ → Word} (enciphered : Enciphered mode key block 32 x) :
    finished x = outcome mode key block := by
  have result : (⟨x 35, x 34, x 33, x 32⟩ : Block Word) =
      crypt (· ^^^ ·) dataRoundFunction (modeKey mode key) 32 block :=
    Computed.crypt_eq enciphered
  cases mode <;> exact result

end Sm4

end RiscvVp
