import RiscvVp.Sm3.Accelerator

/-!
# The rounds of the core

An edge while a block is being hashed extends both arrays and does a round of
the software; the edge after the last round ends the block.
-/

namespace RiscvVp

namespace Sm3

open Bits

/-! ## The same arithmetic -/

theorem tInit_eq : tInit = Software.t :=
  rfl

theorem ff_eq : ff = Software.ff :=
  rfl

theorem gg_eq : gg = Software.gg :=
  rfl

/-- The two halves of a rotation have no bit in common. -/
theorem shift_eq (data : Word) {length : ℕ} (short : length < 32) :
    shift data length = Software.sm3Rotl32 data length := by
  rw [shift, Software.sm3Rotl32, Nat.mod_eq_of_lt short]
  by_cases none : length = 0
  · subst none
    have gone : data >>> (32 - 0) = 0 :=
      BitVec.ushiftRight_eq_zero (Nat.le_refl 32)
    have stays : data >>> ((32 - 0) % 32) = data := BitVec.ushiftRight_zero data
    rw [gone, stays, BitVec.shiftLeft_zero, BitVec.or_self]
    exact BitVec.xor_zero
  · have distance : (32 - length) % 32 = 32 - length :=
      Nat.mod_eq_of_lt (by omega)
    rw [distance]
    ext bit below
    simp only [BitVec.getElem_xor, BitVec.getElem_or, BitVec.getElem_shiftLeft,
      BitVec.getElem_ushiftRight]
    by_cases low : bit < length
    · simp [low]
    · have beyond : data.getLsbD (32 - length + bit) = false := by
        apply BitVec.getLsbD_of_ge
        omega
      simp [beyond]

theorem p0_eq (x : Word) : p0 x = Software.p0 x := by
  rw [p0, Software.p0, shift_eq x (by decide), shift_eq x (by decide)]

theorem p1_eq (x : Word) : p1 x = Software.p1 x := by
  rw [p1, Software.p1, shift_eq x (by decide), shift_eq x (by decide)]

theorem cf_eq_cfRound {core : Core} (table : core.t = tInit) :
    core.cf =
      { core with
        vBuf := Software.cfRound core.w68 core.w64 core.vBuf core.cfCount
        cfCount := core.cfCount + 1 } := by
  have turned : core.cfCount % 32 < 32 := Nat.mod_lt _ (by decide)
  rw [Core.cf, table, tInit_eq]
  simp only [shift_eq _ turned, shift_eq _ (show 12 < 32 by decide),
    shift_eq _ (show 7 < 32 by decide), shift_eq _ (show 9 < 32 by decide),
    shift_eq _ (show 19 < 32 by decide), p0_eq, ff_eq, gg_eq, Software.cfRound]

/-! ## The expansion -/

/-- The message output when the words of a block have been written. -/
def MessageBlock.message (block : MessageBlock) : BitVec 512 :=
  concat block.word 16

theorem load_word (core : Core) (block : MessageBlock) {j : ℕ} (below : j < 16) :
    (core.load block.message).w68 j = block.word j := by
  have start : 480 - j * 32 = 32 * (16 - 1 - j) := by omega
  simp only [Core.load, if_pos below]
  rw [start]
  exact extractLsb'_concat block.word below

theorem load_of_ge (core : Core) (message : BitVec 512) {j : ℕ}
    (late : 16 ≤ j) : (core.load message).w68 j = core.w68 j :=
  if_neg (Nat.not_lt.mpr late)

theorem load_holds (core : Core) (block : MessageBlock) :
    messageExpansion.Holds (core.load block.message).w68 block.word 0 :=
  Expansion.holds_of_given fun _ below => load_word core block below

/-- Loading the words again changes nothing. -/
theorem holds_load {core : Core} {block : MessageBlock} {count : ℕ}
    (holds : messageExpansion.Holds core.w68 block.word count) :
    messageExpansion.Holds (core.load block.message).w68 block.word count := by
  intro j below
  by_cases first : j < 16
  · exact load_holds core block j first
  · rw [load_of_ge core block.message (Nat.le_of_not_lt first)]
    exact holds j below

/-- What a round finds in the arrays when the words are extended as it goes. -/
structure Extended (block : MessageBlock) (rounds : ℕ) (core : Core) : Prop where
  w68Count : core.w68Count = 16 + min rounds 52
  w64Count : core.w64Count = rounds
  holds : messageExpansion.Holds core.w68 block.word (min rounds 52)

theorem messageExt_keeps (core : Core) :
    core.messageExt =
      { core with
        w68 := core.messageExt.w68
        w64 := core.messageExt.w64
        w68Count := core.messageExt.w68Count
        w64Count := core.messageExt.w64Count } := by
  simp only [Core.messageExt]
  split_ifs <;> rfl

theorem messageExt_extended {block : MessageBlock} {rounds : ℕ} {core : Core}
    (extended : Extended block rounds core) (early : rounds < 64) :
    Extended block (rounds + 1) core.messageExt ∧
      core.messageExt.w68 rounds = block.expanded rounds ∧
      core.messageExt.w64 rounds = block.mixed rounds := by
  obtain ⟨w68Count, w64Count, holds⟩ := extended
  generalize grown_eq : core.messageExt.w68 = grown
  have counts : core.messageExt.w68Count = 16 + min (rounds + 1) 52 ∧
      core.messageExt.w64Count = rounds + 1 := by
    simp only [Core.messageExt, w68Count]
    split_ifs <;> simp_all <;> omega
  have longer : messageExpansion.Holds grown block.word (min (rounds + 1) 52) := by
    by_cases more : rounds < 52
    · have now : min rounds 52 = rounds := by omega
      have next : min (rounds + 1) 52 = rounds + 1 := by omega
      have updated : grown = messageExpansion.extend core.w68 (16 + rounds) := by
        have range : 16 ≤ 16 + rounds ∧ 16 + rounds ≤ 67 := by omega
        rw [← grown_eq, Core.messageExt, w68Count, now, if_pos range]
        simp only [w64Count, if_pos (show rounds ≤ 63 by omega)]
        simp only [p1_eq, shift_eq _ (show 15 < 32 by decide),
          shift_eq _ (show 7 < 32 by decide), ← extend_eq,
          Software.expandedWord]
      rw [now] at holds
      rw [next, updated]
      exact holds.extend
    · have now : min rounds 52 = 52 := by omega
      have next : min (rounds + 1) 52 = 52 := by omega
      have same : grown = core.w68 := by
        have range : ¬ (16 ≤ 16 + 52 ∧ 16 + 52 ≤ 67) := by omega
        rw [← grown_eq, Core.messageExt, w68Count, now, if_neg range]
        simp only [w64Count, if_pos (show rounds ≤ 63 by omega)]
      rw [now] at holds
      rw [next, same]
      exact holds
  have word : ∀ j < 16 + min (rounds + 1) 52, grown j = block.expanded j := longer
  have mixed : core.messageExt.w64 rounds =
      grown rounds ^^^ grown (rounds + 4) := by
    have range : rounds ≤ 63 := by omega
    rw [← grown_eq]
    by_cases more : 16 ≤ core.w68Count ∧ core.w68Count ≤ 67 <;>
      simp [Core.messageExt, more, w64Count, range]
  refine ⟨⟨counts.1, counts.2, ?_⟩, word rounds (by omega), ?_⟩
  · rw [grown_eq]
    exact longer
  · rw [mixed, word rounds (by omega), word (rounds + 4) (by omega),
      MessageBlock.mixed]

/-! ## Phases of the core -/

/-- The core as it waits for a block. -/
structure Waiting (chain : Chain) (count : Word) (core : Core) : Prop where
  table : core.t = tInit
  chained : core.v = chain
  working : core.vBuf = chain
  cfCount : core.cfCount = 0
  w68Count : core.w68Count = 16
  w64Count : core.w64Count = 0
  counted : core.vReadyOutCount = count

/-- The core in the midst of a block. -/
structure Hashing (block : MessageBlock) (chain : Chain) (count : Word)
    (rounds : ℕ) (core : Core) : Prop where
  started : core.opt = true
  table : core.t = tInit
  chained : core.v = chain
  working : core.vBuf = after block chain rounds
  cfCount : core.cfCount = rounds
  extended : Extended block rounds (core.load block.message)
  counted : core.vReadyOutCount = count

theorem waiting_reset : Waiting iv 0 Core.reset :=
  ⟨rfl, rfl, rfl, rfl, rfl, rfl, rfl⟩

theorem Waiting.hashing {chain : Chain} {count : Word} {core : Core}
    (waiting : Waiting chain count core) (started : core.opt = true)
    (block : MessageBlock) : Hashing block chain count 0 core where
  started := started
  table := waiting.table
  chained := waiting.chained
  working := waiting.working
  cfCount := waiting.cfCount
  extended := ⟨waiting.w68Count, waiting.w64Count, load_holds core block⟩
  counted := waiting.counted

/-- The signals that the core reads while a block is hashed. -/
structure Fed (block : MessageBlock) (accelerator : Accelerator) : Prop where
  released : accelerator.rst = true
  running : accelerator.socket.sm3RstOut ≠ 1
  started : accelerator.socket.sm3OptOut = 0
  message : accelerator.socket.messageOut = block.message

theorem sm3Hash_of_fed {block : MessageBlock} {accelerator : Accelerator}
    (fed : Fed block accelerator) (started : accelerator.core.opt = true) :
    sm3Hash accelerator =
      let core := (accelerator.core.load block.message).messageExt
      if core.cfCount ≤ 63 then { accelerator with core := core.cf }
      else
        { accelerator with
          core := core.finish
          vOut := concat core.finish.v.get 8
          vReadyOut := core.finish.vReadyOutCount } := by
  have idle : ¬ (accelerator.socket.sm3OptOut = 1) := by
    rw [fed.started]
    decide
  have alive : ¬ (accelerator.rst = false ∨ accelerator.socket.sm3RstOut = 1) := by
    rintro (low | held)
    · rw [fed.released] at low
      cases low
    · exact fed.running held
  rw [sm3Hash]
  simp only [if_neg idle, if_neg alive]
  simp only [started, fed.started, fed.message, and_self, if_true]

theorem edge_hashing {block : MessageBlock} {chain : Chain} {count : Word}
    {rounds : ℕ} {accelerator : Accelerator} (fed : Fed block accelerator)
    (hashing : Hashing block chain count rounds accelerator.core)
    (early : rounds < 64) :
    ∃ core, sm3Hash accelerator = { accelerator with core := core } ∧
      Hashing block chain count (rounds + 1) core := by
  obtain ⟨extended, word, mixed⟩ :=
    messageExt_extended hashing.extended early
  have kept := messageExt_keeps (accelerator.core.load block.message)
  generalize next_eq : (accelerator.core.load block.message).messageExt = next at *
  have table : next.t = tInit := by rw [kept]; exact hashing.table
  have cfCount : next.cfCount = rounds := by rw [kept]; exact hashing.cfCount
  have working : next.vBuf = after block chain rounds := by
    rw [kept]
    exact hashing.working
  refine ⟨next.cf, ?_, ?_⟩
  · rw [sm3Hash_of_fed fed hashing.started, next_eq]
    simp only [cfCount, if_pos (show rounds ≤ 63 by omega)]
  · rw [cf_eq_cfRound table]
    refine {
      started := by rw [kept]; exact hashing.started
      table := table
      chained := by rw [kept]; exact hashing.chained
      working := ?_
      cfCount := by rw [cfCount]
      extended := ⟨extended.w68Count, extended.w64Count, ?_⟩
      counted := by rw [kept]; exact hashing.counted }
    · change Software.cfRound next.w68 next.w64 next.vBuf next.cfCount = _
      rw [cfCount, working, after_succ]
      exact cfRound_congr _ word mixed
    · exact holds_load extended.holds

theorem edge_last {block : MessageBlock} {chain : Chain} {count : Word}
    {accelerator : Accelerator} (fed : Fed block accelerator)
    (hashing : Hashing block chain count 64 accelerator.core) :
    ∃ core, sm3Hash accelerator =
        { accelerator with
          core := core
          vOut := concat (compress chain block).get 8
          vReadyOut := count + 1 } ∧
      Waiting (compress chain block) (count + 1) core ∧ core.opt = false := by
  have kept := messageExt_keeps (accelerator.core.load block.message)
  generalize next_eq : (accelerator.core.load block.message).messageExt = next at *
  have cfCount : next.cfCount = 64 := by rw [kept]; exact hashing.cfCount
  have counted : next.finish.vReadyOutCount = count + 1 := by
    rw [kept]
    simp only [Core.finish, Core.load, hashing.counted]
  have chained : next.finish.v = compress chain block := by
    rw [kept]
    simp only [Core.finish, Core.load, hashing.working, hashing.chained, compress]
  refine ⟨next.finish, ?_, ⟨?_, chained, chained, rfl, rfl, rfl, counted⟩, rfl⟩
  · rw [sm3Hash_of_fed fed hashing.started, next_eq]
    simp only [cfCount, if_neg (show ¬ 64 ≤ 63 by decide), chained, counted]
  · rw [kept]
    exact hashing.table

end Sm3

end RiscvVp
