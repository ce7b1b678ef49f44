import Mathlib
import RiscvVp.Fe310Plic.Eip

/-!
# Claims and completions of one hart

A claim should take the highest interrupt that is pending and enabled for the
hart whose register is read, and a completion should change the flag of the hart
whose register is written.  The register block has two words for each hart, and
the index of the claim word is made the index of a hart by subtracting one, so
that the words of hart `h` lead to hart `2 * h`.  The search of a claim is always
that of hart 0.
-/

namespace RiscvVp

namespace Fe310Plic

open Device Election Trace

section Definitions

variable (parameters : Parameters)

/-- The transaction is routed to the claim word of a hart. -/
structure AddressesClaim (transaction : Transaction) (hart : ℕ) : Prop where
  target : target parameters transaction = some .hartConfig
  below : hart < parameters.numberCores
  address : transaction.address = 0x200000 + (8 * hart + 4)
  whole : transaction.data.length = 4

/-- An interrupt that the hart may be given.  Priority 0 never interrupts. -/
structure Plic.Claimable (plic : Plic) (hart irq : ℕ) : Prop where
  positive : 0 < irq
  inside : irq < parameters.numberInterrupts
  enabled : plic.enabled hart irq = true
  pending : plic.pending irq = true
  ranked : 0 < plic.priority irq

/-- The interrupt that a claim of the hart is owed, or 0. -/
def Plic.Winner (plic : Plic) (hart irq : ℕ) : Prop :=
  ElectedElse (plic.Claimable parameters hart) plic.priority 0 irq

/-- The read returns the winner and takes its pending bit, and no other. -/
def ClaimsWinner (plic : Plic) (hart : ℕ) (reply : List Byte) (later : Plic) :
    Prop :=
  ∃ irq, plic.Winner parameters hart irq ∧
    reply = bytesOf (BitVec.ofNat 32 irq) ∧
    ∀ other, 0 < other → other < parameters.numberInterrupts →
      (later.pending other = true ↔ plic.pending other = true ∧ other ≠ irq)

/-- The external interrupt of the hart is as it was. -/
def KeepsFlag (hart : ℕ) (plic later : Plic) : Prop :=
  later.hartEip hart = plic.hartEip hart ∧ later.line hart = plic.line hart

/-- The flag that the access leads to is one of the array `hart_eip`. -/
def ReachesFlag (transaction : Transaction) : Prop :=
  configIndex (configOffset parameters transaction) < parameters.numberCores

/-- What an access owes to the harts. -/
structure AccessRight (plic : Plic) (transaction : Transaction) : Prop where
  claims : ∀ hart, AddressesClaim parameters transaction hart →
    transaction.command = .read → ∃ reply later,
      transport parameters transaction plic = .ok (reply, later) ∧
        ClaimsWinner parameters plic hart reply later
  /-- A completion is carried out, unless an assertion on `hart_eip` fails that
  is also the hart's own. -/
  completes : ∀ hart, AddressesClaim parameters transaction hart →
    transaction.command = .write →
      (∃ result, transport parameters transaction plic = .ok result) ∨
        (ReachesFlag parameters transaction ∧ plic.Due parameters hart ∧
          plic.hartEip hart = false)
  keeps : ∀ reply later,
    transport parameters transaction plic = .ok (reply, later) →
      ∀ hart, (transaction.command = .write →
        ¬ AddressesClaim parameters transaction hart) →
          KeepsFlag hart plic later

/-- The claim word of the hart holds the winner already, which is also that of
hart 0. -/
def ReadCoincides (plic : Plic) (hart : ℕ) : Prop :=
  2 * hart < parameters.numberCores ∧
    ∃ irq, plic.Winner parameters 0 irq ∧ plic.Winner parameters hart irq ∧
      plic.hartConfig.word (2 * hart + 1) = BitVec.ofNat 32 irq

/-- Hart `2 * hart` exists, and its flag is as a completion would leave it or
fails the assertion that the flag of the hart fails too. -/
def WriteCoincides (plic : Plic) (hart : ℕ) : Prop :=
  2 * hart < parameters.numberCores ∧
    ((plic.hartEip (2 * hart) = true ↔ plic.Due parameters (2 * hart)) ∨
      (plic.Due parameters hart ∧ plic.hartEip hart = false ∧
        plic.Due parameters (2 * hart) ∧ plic.hartEip (2 * hart) = false))

/-- The access is to the claim word of hart 0, or its outcome is by chance what
it should be. -/
def OfFirstHart (plic : Plic) (transaction : Transaction) : Prop :=
  ∀ hart, AddressesClaim parameters transaction hart → hart = 0 ∨
    (transaction.command = .read → ReadCoincides parameters plic hart) ∧
      (transaction.command = .write → WriteCoincides parameters plic hart)

end Definitions

/-! ## The search without a threshold -/

section Search

variable {parameters : Parameters} (plic : Plic)

theorem winner_selection (hart : ℕ) :
    plic.Winner parameters hart (plic.selection parameters hart false) := by
  have found := found_scan (plic.admits hart false) plic.priority (0, 0)
    (List.range' 1 (parameters.numberInterrupts - 1)) List.pairwise_lt_range'
  have candidates : ∀ irq, plic.Claimable parameters hart irq ↔
      irq ∈ List.range' 1 (parameters.numberInterrupts - 1) ∧
        plic.admits hart false irq = true ∧ 0 < plic.priority irq := by
    intro irq
    rw [List.mem_range'_1]
    simp only [Plic.admits, Bool.not_false, Bool.true_or, Bool.and_true,
      Bool.and_eq_true]
    constructor
    · intro claimable
      have positive := claimable.positive
      have inside := claimable.inside
      exact ⟨by omega, ⟨claimable.enabled, claimable.pending⟩, claimable.ranked⟩
    · rintro ⟨member, ⟨enabled, pending⟩, ranked⟩
      exact ⟨by omega, by omega, enabled, pending, ranked⟩
  rw [Plic.Winner, funext fun irq => propext (candidates irq)]
  rcases found with ⟨same, low⟩ | ⟨_, elected⟩
  · refine .inl ⟨congrArg Prod.fst same, fun irq candidate => ?_⟩
    obtain ⟨member, admitted, ranked⟩ := candidate
    exact absurd ranked (Nat.not_lt.mpr (low irq member admitted))
  · exact .inr elected

theorem winner_iff (hart irq : ℕ) :
    plic.Winner parameters hart irq ↔
      irq = plic.selection parameters hart false := by
  constructor
  · intro winner
    exact winner.unique (winner_selection plic hart)
  · intro same
    rw [same]
    exact winner_selection plic hart

/-- A winner other than 0 is pending. -/
theorem pending_of_winner {hart irq : ℕ}
    (winner : plic.Winner parameters hart irq) (positive : 0 < irq) :
    plic.pending irq = true := by
  rcases winner with ⟨rfl, _⟩ | elected
  · exact absurd positive (Nat.lt_irrefl 0)
  · exact elected.stands.pending

end Search

/-! ## A claim -/

/-- The registers after a claim that took an interrupt to the words of a
hart. -/
def Plic.claimed (plic : Plic) (index irq : ℕ) : Plic :=
  { plic with
    hartConfig :=
      plic.hartConfig.setWord (2 * index + 1) (BitVec.ofNat 32 irq)
    pendingInterrupts := plic.pendingInterrupts.setWord (irq / 32)
      (plic.pendingInterrupts.word (irq / 32) &&& ~~~(1#32 <<< (irq % 32))) }

theorem pending_claimed (plic : Plic) (index irq other : ℕ) :
    (plic.claimed index irq).pending other = true ↔
      plic.pending other = true ∧ other ≠ irq := by
  have small : other % 32 < 32 := Nat.mod_lt _ (by decide)
  have bit : (1#32 <<< (irq % 32)).getLsbD (other % 32) =
      decide (other % 32 = irq % 32) := by
    have place : irq % 32 < 32 := Nat.mod_lt _ (by decide)
    rw [← BitVec.twoPow_eq, BitVec.getLsbD_twoPow, decide_eq_true place,
      Bool.true_and]
    exact decide_eq_decide.mpr eq_comm
  simp only [Plic.pending, hasBit_eq, Plic.claimed, Storage.word_setWord]
  by_cases word : other / 32 = irq / 32
  · rw [if_pos word, BitVec.getLsbD_and, BitVec.getLsbD_not, bit, word]
    have same : other % 32 = irq % 32 ↔ other = irq := by omega
    simp [small, same]
  · have different : other ≠ irq := fun same => word (congrArg (· / 32) same)
    rw [if_neg word]
    simp [different]

section Claims

variable {parameters : Parameters} {transaction : Transaction} {hart : ℕ}
  (plic : Plic)

theorem clearPendingInterrupt_eq {irq : ℕ}
    (inside : irq < parameters.numberInterrupts) :
    plic.clearPendingInterrupt parameters irq = .ok { plic with
      pendingInterrupts := plic.pendingInterrupts.setWord (irq / 32)
        (plic.pendingInterrupts.word (irq / 32) &&&
          ~~~(1#32 <<< (irq % 32))) } := by
  have enough := parameters.entries
  have entry : irq / 32 < parameters.numberInterruptEntries := by omega
  simp only [Plic.clearPendingInterrupt, decide_eq_true inside,
    decide_eq_true entry, assert_true]
  rfl

/-- The words of hart `hart` lead to the hart of twice that number. -/
theorem configIndex_claim (hart : ℕ) :
    isClaimResponse (8 * hart + 4) = true ∧
      configIndex (8 * hart + 4) = 2 * hart := by
  have word : (8 * hart + 4) / 4 = 2 * hart + 1 := by omega
  have odd : (2 * hart + 1) % 2 = 1 := by omega
  rw [isClaimResponse, configIndex, word, odd]
  exact ⟨rfl, rfl⟩

theorem preReadHartConfig_claim (hart : ℕ) :
    preReadHartConfig parameters ⟨8 * hart + 4, 4⟩ plic =
      if 2 * hart < parameters.numberCores then
        .ok (true, plic.claimed (2 * hart) (plic.selection parameters 0 false))
      else .error .assertion := by
  obtain ⟨response, index⟩ := configIndex_claim hart
  have aligned : (8 * hart + 4) % 4 = 0 := by omega
  have search := hartGetNextPendingInterrupt_eq plic parameters.cores false
  simp only [preReadHartConfig, aligned, response, index, search, decide_true,
    assert_true, if_true, bind, Except.bind]
  by_cases below : 2 * hart < parameters.numberCores
  · rw [decide_eq_true below, if_pos below, assert_true]
    rw [clearPendingInterrupt_eq _ (selection_lt plic parameters 0 false)]
    rfl
  · rw [decide_eq_false below, if_neg below]
    rfl

/-- What a claim replies with: the winner, if the word is that of hart 0. -/
theorem word_claimed (hart irq : ℕ) :
    (plic.claimed (2 * hart) irq).hartConfig.word (2 * hart + 1) =
      if hart = 0 then BitVec.ofNat 32 irq
      else plic.hartConfig.word (2 * hart + 1) := by
  rw [Plic.claimed, Storage.word_setWord]
  apply if_congr _ rfl rfl
  omega

/-- A claim that takes the pending bit of a winner and no other has found that
winner. -/
theorem winner_of_taken {index irq : ℕ}
    (winner : plic.Winner parameters hart irq)
    (taken : ∀ other, 0 < other → other < parameters.numberInterrupts →
      ((plic.claimed index (plic.selection parameters 0 false)).pending other =
        true ↔ plic.pending other = true ∧ other ≠ irq)) :
    plic.selection parameters 0 false = irq := by
  have own : plic.Winner parameters 0 (plic.selection parameters 0 false) :=
    winner_selection plic 0
  have inside : irq < parameters.numberInterrupts := by
    rw [(winner_iff plic hart irq).mp winner]
    exact selection_lt plic parameters hart false
  apply Decidable.byContradiction
  intro different
  rcases Nat.eq_zero_or_pos irq with zero | positive
  · -- the winner of hart 0 has lost its bit
    have found : 0 < plic.selection parameters 0 false := by omega
    have lost := taken _ found (selection_lt plic parameters 0 false)
    rw [pending_claimed] at lost
    exact (lost.mpr ⟨pending_of_winner plic own found, different⟩).2 rfl
  · -- the winner has kept its bit
    have kept := taken irq positive inside
    rw [pending_claimed] at kept
    exact (kept.mp ⟨pending_of_winner plic winner positive,
      fun same => different same.symm⟩).2 rfl

variable (addresses : AddressesClaim parameters transaction hart)

include addresses

theorem AddressesClaim.accepts :
    (Register.range parameters .hartConfig).Accepts transaction ∧
      (Register.range parameters .hartConfig).info transaction =
        ⟨8 * hart + 4, 4⟩ := by
  have contains : (Register.range parameters .hartConfig).contains
      transaction.address = true := by
    have found := addresses.target
    rw [Fe310Plic.target] at found
    simpa using List.find?_some found
  have offset : (Register.range parameters .hartConfig).toLocal
      transaction.address = 8 * hart + 4 := by
    rw [addresses.address]
    exact Nat.add_sub_cancel_left _ _
  have size : (Register.range parameters .hartConfig).size =
      8 * parameters.numberCores := rfl
  have alignment : (Register.range parameters .hartConfig).alignment = 4 := rfl
  have below := addresses.below
  constructor
  · constructor
    · exact contains
    · rw [offset, addresses.whole, size]
      omega
    · rw [alignment, addresses.address]
      omega
    · rw [alignment, addresses.whole]
  · rw [RegisterRange.info, offset, addresses.whole]

theorem AddressesClaim.unique {other : ℕ}
    (another : AddressesClaim parameters transaction other) : other = hart := by
  have same := another.address.symm.trans addresses.address
  omega

/-- A claim takes the winner of hart 0 and replies with the claim word of the
hart. -/
theorem transport_of_claim (reads : transaction.command = .read) :
    transport parameters transaction plic =
      if 2 * hart < parameters.numberCores then
        .ok (bytesOf ((plic.claimed (2 * hart)
            (plic.selection parameters 0 false)).hartConfig.word (2 * hart + 1)),
          plic.claimed (2 * hart) (plic.selection parameters 0 false))
      else .error .assertion := by
  obtain ⟨accepts, info⟩ := addresses.accepts
  have called : (Register.range parameters .hartConfig).preReadCallback =
      preReadHartConfig parameters := rfl
  have word : 8 * hart + 4 = 4 * (2 * hart + 1) := by omega
  rw [transport, route_of_find addresses.target,
    RegisterRange.process_read_of_accepts accepts reads (fun _ _ => rfl), info,
    called, preReadHartConfig_claim]
  by_cases below : 2 * hart < parameters.numberCores
  · rw [if_pos below, if_pos below, ← Storage.slice_four, ← word,
      addresses.whole]
    rfl
  · rw [if_neg below, if_neg below]
    rfl

theorem claims_iff (reads : transaction.command = .read) :
    (∃ reply later, transport parameters transaction plic = .ok (reply, later) ∧
        ClaimsWinner parameters plic hart reply later) ↔
      hart = 0 ∨ ReadCoincides parameters plic hart := by
  have effect := transport_of_claim plic addresses reads
  rw [word_claimed] at effect
  constructor
  · intro ⟨reply, later, transported, irq, winner, replied, taken⟩
    rw [effect] at transported
    by_cases below : 2 * hart < parameters.numberCores
    · rw [if_pos below] at transported
      cases transported
      by_cases first : hart = 0
      · exact .inl first
      rw [if_neg first] at replied
      have same := winner_of_taken plic winner taken
      exact .inr ⟨below, irq, same ▸ winner_selection plic 0, winner,
        bytesOf_injective replied⟩
    · rw [if_neg below] at transported
      cases transported
  · intro right
    have below : 2 * hart < parameters.numberCores := by
      rcases right with rfl | coincides
      · exact parameters.cores
      · exact coincides.1
    rw [effect, if_pos below]
    refine ⟨_, _, rfl, ?_⟩
    by_cases first : hart = 0
    · subst first
      refine ⟨_, winner_selection plic 0, rfl, fun other _ _ => ?_⟩
      exact pending_claimed plic 0 _ other
    · obtain ⟨_, irq, winner, own, word⟩ := right.resolve_left first
      refine ⟨irq, own, ?_, fun other _ _ => ?_⟩
      · rw [if_neg first, word]
      · rw [(winner_iff plic 0 irq).mp winner]
        exact pending_claimed plic (2 * hart) _ other

end Claims

/-! ## A completion -/

section Completions

variable {parameters : Parameters} {transaction : Transaction} {hart : ℕ}
  {plic later : Plic} {reply : List Byte}

/-- The registers of `hart_eip` are those the targets were told. -/
def FlagsTold (plic : Plic) : Prop := plic.line = plic.hartEip

theorem AddressesClaim.offset
    (addresses : AddressesClaim parameters transaction hart) :
    configOffset parameters transaction = 8 * hart + 4 := by
  rw [configOffset_eq, addresses.address]
  exact Nat.add_sub_cancel_left _ _

/-- A completion of a hart is one of the hart of twice that number. -/
theorem AddressesClaim.completes
    (addresses : AddressesClaim parameters transaction hart)
    (writes : transaction.command = .write)
    (below : 2 * hart < parameters.numberCores) :
    Completes parameters transaction (2 * hart) := by
  obtain ⟨response, index⟩ := configIndex_claim hart
  constructor
  · exact writes
  · exact addresses.target
  · rw [addresses.address]
    omega
  · rw [addresses.offset, response]
  · exact addresses.whole
  · rw [addresses.offset, index]
  · exact below

/-- Every completion is one of a hart that exists. -/
theorem addresses_of_completes {index : ℕ}
    (completes : Completes parameters transaction index) :
    ∃ hart, index = 2 * hart ∧
      AddressesClaim parameters transaction hart := by
  obtain ⟨word, offset⟩ := completes.four_mul
  have contains : (Register.range parameters .hartConfig).contains
      transaction.address = true := by
    have found := completes.target
    rw [Fe310Plic.target] at found
    simpa using List.find?_some found
  rw [RegisterRange.contains, Bool.and_eq_true] at contains
  have first : 0x200000 ≤ transaction.address := of_decide_eq_true contains.1
  have last : transaction.address ≤
      0x200000 + 8 * parameters.numberCores - 1 := of_decide_eq_true contains.2
  have index := completes.index
  rw [configOffset_eq] at offset
  rw [configOffset_eq, configIndex] at index
  refine ⟨word, by omega, completes.target, by omega, by omega,
    completes.whole⟩

/-- Outside the array of the flags nothing is completed. -/
theorem below_of_completed
    (addresses : AddressesClaim parameters transaction hart)
    (writes : transaction.command = .write)
    (transported : transport parameters transaction plic = .ok (reply, later)) :
    2 * hart < parameters.numberCores := by
  obtain ⟨register, found, processed⟩ := route_eq_ok.mp transported
  cases addresses.target.symm.trans found
  obtain ⟨_, proceeds, middle, before, rest⟩ :=
    RegisterRange.process_write writes processed
  cases before
  obtain ⟨_, info⟩ := addresses.accepts
  obtain ⟨response, index⟩ := configIndex_claim hart
  change postWriteHartConfig parameters _ _ = .ok later at rest
  rw [info, postWriteHartConfig] at rest
  obtain ⟨_, _, rest⟩ := bind_eq_ok.mp rest
  rw [if_pos response] at rest
  obtain ⟨_, _, rest⟩ := bind_eq_ok.mp rest
  obtain ⟨_, _, rest⟩ := bind_eq_ok.mp rest
  obtain ⟨_, inside, _⟩ := bind_eq_ok.mp rest
  rw [index] at inside
  exact of_decide_eq_true (assert_eq_ok.mp inside)

/-- What is not a completion changes no flag. -/
theorem flags_elsewhere
    (transported : transport parameters transaction plic = .ok (reply, later))
    (elsewhere : transaction.command = .write →
      ∀ hart, ¬ AddressesClaim parameters transaction hart) :
    later.hartEip = plic.hartEip ∧ later.line = plic.line := by
  cases isCommand : transaction.command with
  | read =>
      obtain ⟨_, eip, line, _⟩ := transport_read isCommand transported
      exact ⟨eip, line⟩
  | write =>
      rcases transport_write isCommand transported with completes | programs
      · obtain ⟨index, completes⟩ := completes
        obtain ⟨hart, _, addresses⟩ := addresses_of_completes completes
        exact absurd addresses (elsewhere isCommand hart)
      · obtain ⟨_, rfl⟩ := programs
        obtain ⟨_, eip, line⟩ := notified_written parameters transaction plic
        exact ⟨eip, line⟩
  | ignore =>
      obtain ⟨_, _, processed⟩ := route_eq_ok.mp transported
      have command := RegisterRange.process_command processed
      simp [isCommand] at command

/-- A completion that is carried out sets one flag, and the target's, to whether
an interrupt is due. -/
theorem flags_of_completes {index : ℕ}
    (completes : Completes parameters transaction index)
    (transported : transport parameters transaction plic = .ok (reply, later)) :
    ∃ flag, (flag = true ↔ plic.Due parameters index) ∧
      (flag = true → plic.hartEip index = true) ∧
      later.hartEip = Function.update plic.hartEip index flag ∧
      later.line = Function.update plic.line index flag := by
  obtain ⟨hasPending, due, effect⟩ := transport_of_completes plic completes
  obtain ⟨_, eip, line⟩ := notified_written parameters transaction plic
  rw [transported] at effect
  refine ⟨hasPending, due, ?_⟩
  cases hasPending with
  | true =>
      rw [if_pos rfl] at effect
      by_cases raised : plic.hartEip index = true
      · rw [if_pos raised] at effect
        cases effect
        refine ⟨fun _ => raised, ?_, ?_⟩
        · rw [← raised, Function.update_eq_self]
          exact eip
        · rw [← line]
          rfl
      · rw [if_neg raised] at effect
        cases effect
  | false =>
      rw [if_neg Bool.false_ne_true] at effect
      cases effect
      refine ⟨nofun, ?_, ?_⟩
      · rw [← eip]
        rfl
      · rw [← line]
        rfl

/-- Whether a completion is carried out. -/
theorem completed_iff {index : ℕ}
    (completes : Completes parameters transaction index) :
    (∃ result, transport parameters transaction plic = .ok result) ↔
      (plic.Due parameters index → plic.hartEip index = true) := by
  obtain ⟨hasPending, due, effect⟩ := transport_of_completes plic completes
  rw [effect, ← due]
  cases hasPending with
  | true => cases plic.hartEip index <;> simp
  | false => simp

/-- A completion of a hart keeps the flags of all others exactly if its own was
right before. -/
theorem keepsFlag_iff (told : FlagsTold plic) {index other : ℕ}
    (completes : Completes parameters transaction index)
    (transported : transport parameters transaction plic = .ok (reply, later)) :
    KeepsFlag other plic later ↔
      (other = index →
        (plic.hartEip index = true ↔ plic.Due parameters index)) := by
  obtain ⟨flag, due, _, eip, line⟩ := flags_of_completes completes transported
  rw [KeepsFlag, eip, line, ← due, congrFun told other]
  by_cases same : other = index
  · subst same
    simp only [Function.update_self, true_implies, and_self]
    cases flag <;> simp
  · simp [same, congrFun told other]

/-- The flag that the words of a hart lead to. -/
theorem reachesFlag_iff
    (addresses : AddressesClaim parameters transaction hart) :
    ReachesFlag parameters transaction ↔ 2 * hart < parameters.numberCores := by
  rw [ReachesFlag, addresses.offset, (configIndex_claim hart).2]

/-- What is owed for a completion. -/
def CompletionRight (parameters : Parameters) (plic : Plic)
    (transaction : Transaction) (hart : ℕ) : Prop :=
  ((∃ result, transport parameters transaction plic = .ok result) ∨
      (ReachesFlag parameters transaction ∧ plic.Due parameters hart ∧
        plic.hartEip hart = false)) ∧
    ∀ reply later, transport parameters transaction plic = .ok (reply, later) →
      ∀ other ≠ hart, KeepsFlag other plic later

theorem completionRight_iff (told : FlagsTold plic)
    (addresses : AddressesClaim parameters transaction hart)
    (writes : transaction.command = .write) :
    CompletionRight parameters plic transaction hart ↔
      hart = 0 ∨ WriteCoincides parameters plic hart := by
  have reaches := reachesFlag_iff addresses
  by_cases below : 2 * hart < parameters.numberCores
  · have completes := addresses.completes writes below
    by_cases carried : plic.Due parameters (2 * hart) →
        plic.hartEip (2 * hart) = true
    · obtain ⟨⟨reply, later⟩, transported⟩ := (completed_iff completes).mpr carried
      rw [CompletionRight, transported]
      have keeps : (∀ other ≠ hart, KeepsFlag other plic later) ↔
          hart = 0 ∨ (plic.hartEip (2 * hart) = true ↔
            plic.Due parameters (2 * hart)) := by
        simp only [keepsFlag_iff told completes transported]
        constructor
        · intro right
          by_cases first : hart = 0
          · exact .inl first
          · exact .inr (right (2 * hart) (by omega) rfl)
        · intro right other different same
          exact right.resolve_left (by omega)
      have settled : WriteCoincides parameters plic hart ↔
          (plic.hartEip (2 * hart) = true ↔
            plic.Due parameters (2 * hart)) := by
        constructor
        · rintro ⟨_, same | ⟨_, _, due, clear⟩⟩
          · exact same
          · rw [carried due] at clear
            cases clear
        · intro same
          exact ⟨below, .inl same⟩
      rw [settled, ← keeps]
      simp
    · have refused : ∀ result,
          transport parameters transaction plic ≠ .ok result := fun _ ok =>
        carried ((completed_iff completes).mp ⟨_, ok⟩)
      obtain ⟨due, clear⟩ := Classical.not_imp.mp carried
      rw [Bool.not_eq_true] at clear
      by_cases first : hart = 0
      · subst first
        simp [CompletionRight, refused, reaches.mpr below, due, clear]
      · simp [CompletionRight, WriteCoincides, refused, reaches, below, due,
          clear, first]
  · have refused : ∀ result,
        transport parameters transaction plic ≠ .ok result := fun _ carried =>
      below (below_of_completed addresses writes carried)
    have later : hart ≠ 0 := by
      rintro rfl
      exact below parameters.cores
    simp [CompletionRight, WriteCoincides, refused, reaches, below, later]

end Completions

/-! ## Every access -/

section Access

variable {parameters : Parameters} {plic : Plic}

/-- An access is right when it is of the first hart or comes out right by
chance. -/
theorem accessRight_iff (told : FlagsTold plic) (transaction : Transaction) :
    AccessRight parameters plic transaction ↔
      OfFirstHart parameters plic transaction := by
  constructor
  · intro right hart addresses
    cases isCommand : transaction.command with
    | read =>
        have claimed := (claims_iff plic addresses isCommand).mp
          (right.claims hart addresses isCommand)
        exact claimed.imp_right fun coincides => ⟨fun _ => coincides, nofun⟩
    | write =>
        have completed := (completionRight_iff told addresses isCommand).mp
          ⟨right.completes hart addresses isCommand,
            fun reply later transported other different =>
              right.keeps reply later transported other fun _ another =>
                different (addresses.unique another)⟩
        exact completed.imp_right fun coincides => ⟨nofun, fun _ => coincides⟩
    | ignore => exact .inr ⟨nofun, nofun⟩
  · intro first
    constructor
    · intro hart addresses reads
      exact (claims_iff plic addresses reads).mpr
        ((first hart addresses).imp_right fun coincides => coincides.1 reads)
    · intro hart addresses writes
      exact ((completionRight_iff told addresses writes).mpr
        ((first hart addresses).imp_right fun coincides =>
          coincides.2 writes)).1
    · intro reply later transported other elsewhere
      by_cases completion : transaction.command = .write ∧
          ∃ hart, AddressesClaim parameters transaction hart
      · obtain ⟨writes, hart, addresses⟩ := completion
        have right := (completionRight_iff told addresses writes).mpr
          ((first hart addresses).imp_right fun coincides =>
            coincides.2 writes)
        apply right.2 reply later transported other
        rintro rfl
        exact elsewhere writes addresses
      · obtain ⟨eip, line⟩ := flags_elsewhere transported
          fun writes hart addresses => completion ⟨writes, hart, addresses⟩
        exact ⟨congrFun eip other, congrFun line other⟩

end Access

/-! ## Whole runs -/

section Runs

variable {parameters : Parameters} {plic later : Plic}

/-- One event, when the simulation survives it. -/
def Moves (parameters : Parameters) (plic : Plic) (event : Event)
    (later : Plic) : Prop :=
  ∃ reply, step parameters event plic = .ok (reply, later)

theorem flagsTold_serveHart {hart : ℕ} (told : FlagsTold plic)
    (served : plic.serveHart parameters hart = .ok later) :
    FlagsTold later := by
  rw [Plic.serveHart] at served
  cases eip : plic.hartEip hart with
  | true =>
      rw [eip] at served
      cases served
      exact told
  | false =>
      rw [eip] at served
      obtain ⟨hasPending, _, rest⟩ := bind_eq_ok.mp served
      cases hasPending with
      | false =>
          cases rest
          exact told
      | true =>
          cases rest
          exact congrArg (Function.update · hart true) told

theorem flagsTold_serveHarts {harts : List ℕ} (told : FlagsTold plic)
    (served : harts.foldlM (fun plic hart => plic.serveHart parameters hart)
      plic = .ok later) : FlagsTold later := by
  induction harts generalizing plic with
  | nil =>
      cases served
      exact told
  | cons hart harts inductionHypothesis =>
      obtain ⟨next, first, rest⟩ := bind_eq_ok.mp served
      exact inductionHypothesis (flagsTold_serveHart told first) rest

theorem flagsTold_transport {transaction : Transaction} {reply : List Byte}
    (told : FlagsTold plic)
    (transported : transport parameters transaction plic = .ok (reply, later)) :
    FlagsTold later := by
  by_cases completion : ∃ index, Completes parameters transaction index
  · obtain ⟨index, completes⟩ := completion
    obtain ⟨flag, _, _, eip, line⟩ := flags_of_completes completes transported
    rw [FlagsTold, eip, line]
    exact congrArg (Function.update · index flag) told
  · have elsewhere : transaction.command = .write →
        ∀ hart, ¬ AddressesClaim parameters transaction hart :=
      fun writes hart addresses => completion ⟨2 * hart,
        addresses.completes writes
          (below_of_completed addresses writes transported)⟩
    obtain ⟨eip, line⟩ := flags_elsewhere transported elsewhere
    rw [FlagsTold, eip, line]
    exact told

theorem flagsTold_step {event : Event} (told : FlagsTold plic)
    (moves : Moves parameters plic event later) : FlagsTold later := by
  obtain ⟨reply, stepped⟩ := moves
  cases event with
  | trigger irq =>
      obtain ⟨_, triggered, same⟩ := bind_eq_ok.mp stepped
      cases same
      rw [Plic.gatewayTriggerInterrupt] at triggered
      obtain ⟨_, _, triggered⟩ := bind_eq_ok.mp triggered
      obtain ⟨_, _, same⟩ := bind_eq_ok.mp triggered
      cases same
      exact told
  | transport transaction => exact flagsTold_transport told stepped
  | wake =>
      by_cases awake : plic.notified = true
      · rw [step, if_pos awake] at stepped
        obtain ⟨_, ran, same⟩ := bind_eq_ok.mp stepped
        cases same
        have quiet : FlagsTold { plic with notified := false } := told
        exact flagsTold_serveHarts quiet ran
      · rw [step, if_neg awake] at stepped
        cases stepped
        exact told

/-- A condition on the accesses. -/
def OnAccess (holds : Plic → Transaction → Prop) (plic : Plic) :
    Event → Prop
  | .transport transaction => holds plic transaction
  | _ => True

/-- Along every sequence of triggers, transactions and turns of the thread the
accesses are right exactly as long as they are of the first hart or come out
right by chance. -/
theorem accessesRight_iff (parameters : Parameters) (events : List Event) :
    EveryEvent (Moves parameters) (OnAccess (AccessRight parameters)) events
        (.reset parameters) ↔
      EveryEvent (Moves parameters) (OnAccess (OfFirstHart parameters)) events
        (.reset parameters) := by
  have start : FlagsTold (.reset parameters) := rfl
  refine everyEvent_congr ?_ ?_ start
  · intro plic event later told moves
    exact flagsTold_step told moves
  · intro plic event told
    cases event with
    | trigger irq => exact Iff.rfl
    | transport transaction => exact accessRight_iff told transaction
    | wake => exact Iff.rfl

/-- Two harts: the claim of the second one leads outside the array. -/
def twoHarts : Parameters where
  numberCores := 2
  numberInterrupts := 53
  numberInterruptEntries := 64
  maxPriority := 7
  cores := Nat.two_pos
  entries := Parameters.hifive.entries
  interrupts := Parameters.hifive.interrupts

/-- A claim of the second of two harts is not carried out. -/
theorem not_accessesRight :
    ¬ ∀ (parameters : Parameters) (events : List Event),
      EveryEvent (Moves parameters) (OnAccess (AccessRight parameters)) events
        (.reset parameters) := by
  intro always
  let claim : Transaction := ⟨.read, 0x20000C, [0, 0, 0, 0]⟩
  have addresses : AddressesClaim twoHarts claim 1 :=
    ⟨by decide, by decide, by decide, by decide⟩
  have right := (always twoHarts [.transport claim]).1
  obtain ⟨reply, later, transported, _⟩ := right.claims 1 addresses rfl
  rw [transport_of_claim _ addresses rfl, if_neg (by decide)] at transported
  cases transported

end Runs

end Fe310Plic

end RiscvVp
