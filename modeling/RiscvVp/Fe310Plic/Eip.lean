import RiscvVp.Device.Trace
import RiscvVp.Fe310Plic.Selection

/-!
# The external interrupt flags

While no notification is outstanding, `hart_eip` should be set for every hart
with an interrupt due, and the assertion on it in the completion write should
hold.

Only the thread sets the flags, and only a trigger wakes it.  So a write that
makes an interrupt due, by an enable bit, a priority or a lower threshold,
leaves the flag behind until the next trigger, and a completion in between
fails its assertion.
-/

namespace RiscvVp

namespace Fe310Plic

open Device Trace

/-! ## Accesses -/

section Accesses

variable (parameters : Parameters) (transaction : Transaction)

/-- The register range that the transaction is routed to. -/
def target : Option Register :=
  registerRanges.find? fun register =>
    (Register.range parameters register).contains transaction.address

/-- Its address, as the callbacks of the hart configurations see it. -/
def configOffset : ℕ :=
  (Register.range parameters .hartConfig).toLocal transaction.address

theorem configOffset_eq :
    configOffset parameters transaction = transaction.address - 0x200000 :=
  rfl

/-- The transaction writes a claim word, and the loops stay in their arrays. -/
structure Completes (hart : ℕ) : Prop where
  writes : transaction.command = .write
  target : target parameters transaction = some .hartConfig
  aligned : transaction.address % 4 = 0
  response : isClaimResponse (configOffset parameters transaction) = true
  whole : transaction.data.length = 4
  index : configIndex (configOffset parameters transaction) = hart
  below : hart < parameters.numberCores

/-- The bytes of a range as the transaction writes them. -/
def Plic.stored (register : Register) (plic : Plic) : Plic :=
  (Register.range parameters register).store
    ((Register.range parameters register).toLocal transaction.address)
    transaction.data plic

/-- The registers as the transaction leaves them when it is a write. -/
def Plic.written (plic : Plic) : Plic :=
  match target parameters transaction with
  | none | some .pendingInterrupts => plic
  | some .interruptPriorities =>
      postWriteInterruptPriorities parameters
        (plic.stored parameters transaction .interruptPriorities)
  | some .hartEnabledInterrupts =>
      plic.stored parameters transaction .hartEnabledInterrupts
  | some .hartConfig => plic.stored parameters transaction .hartConfig

end Accesses

section Completion

variable {parameters : Parameters} {transaction : Transaction} {hart : ℕ}
  (plic : Plic)

theorem written_of_completes (completes : Completes parameters transaction hart) :
    plic.written parameters transaction =
      { plic with
        hartConfig := plic.hartConfig.copy (configOffset parameters transaction)
          transaction.data } := by
  rw [Plic.written, completes.target]
  rfl

theorem Completes.four_mul (completes : Completes parameters transaction hart) :
    ∃ word, configOffset parameters transaction = 4 * (2 * word + 1) := by
  have response := completes.response
  have aligned := completes.aligned
  rw [isClaimResponse, beq_iff_eq] at response
  have offset : configOffset parameters transaction % 4 = 0 := by
    rw [configOffset_eq]
    omega
  refine ⟨configOffset parameters transaction / 4 / 2, ?_⟩
  omega

/-- A completion writes the word after an even one, which holds no
threshold. -/
theorem due_written_of_completes
    (completes : Completes parameters transaction hart) (other : ℕ) :
    (plic.written parameters transaction).Due parameters other ↔
      plic.Due parameters other := by
  rw [written_of_completes plic completes]
  apply due_congr
  · rfl
  · rfl
  · rfl
  · obtain ⟨word, offset⟩ := completes.four_mul
    have whole := completes.whole
    have apart : 4 * (2 * other) + 4 ≤ configOffset parameters transaction ∨
        configOffset parameters transaction + transaction.data.length ≤
          4 * (2 * other) := by
      omega
    simp only [Plic.threshold, Storage.word_copy_of_apart plic.hartConfig apart]

theorem postWriteHartConfig_response {addr size : ℕ} {hasPending : Bool}
    (aligned : addr % 4 = 0) (response : isClaimResponse addr = true)
    (whole : size = 4) (index : configIndex addr = hart)
    (below : hart < parameters.numberCores)
    (search : plic.hartHasPendingEnabledInterrupts parameters hart =
      .ok hasPending) :
    postWriteHartConfig parameters ⟨addr, size⟩ plic =
      if hasPending then
        if plic.hartEip hart then .ok (plic.setLine hart true)
        else .error .assertion
      else .ok ((plic.setEip hart false).setLine hart false) := by
  simp only [postWriteHartConfig, aligned, response, whole, index, below, search,
    decide_true, assert_true, if_true, bind, Except.bind]
  cases hasPending with
  | false => rfl
  | true =>
      cases raised : plic.hartEip hart with
      | false => simp [assert]
      | true => simp [pure, Except.pure]

/-- What a completion does: the flag is asserted while an interrupt is due, and
else cleared. -/
theorem transport_of_completes
    (completes : Completes parameters transaction hart) :
    ∃ hasPending, (hasPending = true ↔ plic.Due parameters hart) ∧
      transport parameters transaction plic =
        if hasPending then
          if plic.hartEip hart then
            .ok (transaction.data,
              (plic.written parameters transaction).setLine hart true)
          else .error .assertion
        else
          .ok (transaction.data,
            ((plic.written parameters transaction).setEip hart false).setLine hart
              false) := by
  obtain ⟨hasPending, search, due⟩ := hartHasPendingEnabledInterrupts_eq
    (plic.written parameters transaction) completes.below
  refine ⟨hasPending, due.trans (due_written_of_completes plic completes hart),
    ?_⟩
  have contains : (Register.range parameters .hartConfig).contains
      transaction.address = true := by
    have found := completes.target
    rw [target] at found
    simpa using List.find?_some found
  have offset := configOffset_eq parameters transaction
  have address : 0x200000 ≤ transaction.address ∧
      transaction.address ≤ 0x200000 + 8 * parameters.numberCores - 1 := by
    rw [RegisterRange.contains, Bool.and_eq_true] at contains
    exact ⟨of_decide_eq_true contains.1, of_decide_eq_true contains.2⟩
  have aligned := completes.aligned
  have whole := completes.whole
  have wordAligned : configOffset parameters transaction % 4 = 0 := by
    omega
  have fits : configOffset parameters transaction + transaction.data.length ≤
      8 * parameters.numberCores := by
    omega
  have eip : (plic.written parameters transaction).hartEip = plic.hartEip := by
    rw [written_of_completes plic completes]
  have alignment : (Register.range parameters .hartConfig).alignment = 4 := rfl
  have accepts : (Register.range parameters .hartConfig).Accepts transaction :=
    { contains := contains
      fits := fits
      aligned := by
        rw [alignment, aligned]
      whole := by
        rw [alignment, whole] }
  rw [transport, route_of_find completes.target,
    RegisterRange.process_of_accepts accepts completes.writes rfl rfl]
  have stored : (Register.range parameters .hartConfig).store
      (configOffset parameters transaction) transaction.data plic =
        plic.written parameters transaction := by
    rw [Plic.written, completes.target]
    rfl
  have info : (Register.range parameters .hartConfig).info transaction =
      ⟨configOffset parameters transaction, transaction.data.length⟩ := rfl
  have called : (Register.range parameters .hartConfig).postWriteCallback =
      postWriteHartConfig parameters := rfl
  rw [info, stored, called, postWriteHartConfig_response
    (plic.written parameters transaction) wordAligned completes.response whole
    completes.index completes.below search, eip]
  cases hasPending with
  | false => rfl
  | true =>
      cases raised : plic.hartEip hart with
      | false => rfl
      | true => rfl

end Completion

/-- A claim takes a pending bit and writes a claim word, so nothing becomes
due. -/
theorem preReadHartConfig_frame {parameters : Parameters} {info : AccessInfo}
    {plic later : Plic} {proceeds : Bool}
    (called : preReadHartConfig parameters info plic = .ok (proceeds, later)) :
    later.notified = plic.notified ∧ later.hartEip = plic.hartEip ∧
      later.line = plic.line ∧ ∀ hart, later.Due parameters hart → plic.Due parameters hart := by
  rw [preReadHartConfig] at called
  obtain ⟨_, _, rest⟩ := bind_eq_ok.mp called
  by_cases response : isClaimResponse info.addr = true
  · rw [if_pos response] at rest
    obtain ⟨_, _, rest⟩ := bind_eq_ok.mp rest
    obtain ⟨minId, _, rest⟩ := bind_eq_ok.mp rest
    obtain ⟨_, _, rest⟩ := bind_eq_ok.mp rest
    obtain ⟨cleared, clear, same⟩ := bind_eq_ok.mp rest
    cases same
    rw [Plic.clearPendingInterrupt] at clear
    obtain ⟨_, _, clear⟩ := bind_eq_ok.mp clear
    obtain ⟨_, _, same⟩ := bind_eq_ok.mp clear
    cases same
    refine ⟨rfl, rfl, rfl, fun hart => ?_⟩
    apply due_mono
    · rfl
    · intro irq isPending
      simp only [Plic.pending, hasBit_eq, Storage.word_setWord] at isPending ⊢
      by_cases word : irq / 32 = minId / 32
      · rw [if_pos word, BitVec.getLsbD_and, Bool.and_eq_true] at isPending
        rw [word]
        exact isPending.1
      · rw [if_neg word] at isPending
        exact isPending
    · rfl
    · have even : 2 * hart ≠ 2 * configIndex info.addr + 1 := by omega
      simp only [Plic.threshold, Storage.word_setWord, if_neg even]
  · rw [if_neg response] at rest
    cases rest
    exact ⟨rfl, rfl, rfl, fun _ due => due⟩

section Transport

variable {parameters : Parameters} {transaction : Transaction}
  {plic later : Plic} {reply : List Byte}

theorem transport_read (isRead : transaction.command = .read)
    (transported : transport parameters transaction plic = .ok (reply, later)) :
    later.notified = plic.notified ∧ later.hartEip = plic.hartEip ∧
      later.line = plic.line ∧ ∀ hart, later.Due parameters hart → plic.Due parameters hart := by
  obtain ⟨register, _, processed⟩ := route_eq_ok.mp transported
  obtain ⟨_, proceeds, middle, before, rest⟩ :=
    RegisterRange.process_read isRead processed
  have post : ∀ info device,
      (Register.range parameters register).postReadCallback info device =
        .ok device := by
    cases register <;> exact fun _ _ => rfl
  have same : later = middle := by
    cases proceeds with
    | true =>
        obtain ⟨_, after⟩ := rest
        rw [post] at after
        exact (Except.ok.inj after).symm
    | false => exact rest.2
  rw [same]
  cases register with
  | hartConfig => exact preReadHartConfig_frame before
  | interruptPriorities | pendingInterrupts | hartEnabledInterrupts =>
      cases before
      exact ⟨rfl, rfl, rfl, fun _ due => due⟩

theorem notified_written (parameters : Parameters) (transaction : Transaction)
    (plic : Plic) :
    (plic.written parameters transaction).notified = plic.notified ∧
      (plic.written parameters transaction).hartEip = plic.hartEip ∧
      (plic.written parameters transaction).line = plic.line := by
  cases found : target parameters transaction with
  | none => simp [Plic.written, found]
  | some register =>
      cases register <;>
        simp [Plic.written, Plic.stored, found, RegisterRange.store,
          Register.range, postWriteInterruptPriorities]

/-- A write that is carried out completes an interrupt, or else only programs
the registers. -/
theorem transport_write (isWrite : transaction.command = .write)
    (transported : transport parameters transaction plic = .ok (reply, later)) :
    (∃ hart, Completes parameters transaction hart) ∨
      ((∀ hart, ¬ Completes parameters transaction hart) ∧
        later = plic.written parameters transaction) := by
  obtain ⟨register, found, processed⟩ := route_eq_ok.mp transported
  change target parameters transaction = some register at found
  obtain ⟨accepts, proceeds, middle, before, rest⟩ :=
    RegisterRange.process_write isWrite processed
  have elsewhere : register ≠ .hartConfig →
      ∀ hart, ¬ Completes parameters transaction hart := by
    intro other hart completes
    have same := completes.target.symm.trans found
    exact other (Option.some.inj same).symm
  cases register with
  | interruptPriorities | hartEnabledInterrupts =>
      cases before
      cases rest
      refine Or.inr ⟨elsewhere (by decide), ?_⟩
      rw [Plic.written, found]
      rfl
  | pendingInterrupts =>
      have writable := RegisterRange.writable_of_process isWrite processed
      cases writable
  | hartConfig =>
      cases before
      change postWriteHartConfig parameters
        ⟨configOffset parameters transaction, transaction.data.length⟩
        (plic.stored parameters transaction .hartConfig) = .ok later at rest
      have written : plic.written parameters transaction =
          plic.stored parameters transaction .hartConfig := by
        rw [Plic.written, found]
      rw [postWriteHartConfig] at rest
      obtain ⟨_, aligned, rest⟩ := bind_eq_ok.mp rest
      by_cases response :
          isClaimResponse (configOffset parameters transaction) = true
      · rw [if_pos response] at rest
        obtain ⟨_, whole, rest⟩ := bind_eq_ok.mp rest
        obtain ⟨hasPending, _, rest⟩ := bind_eq_ok.mp rest
        obtain ⟨_, below, _⟩ := bind_eq_ok.mp rest
        exact Or.inl ⟨configIndex (configOffset parameters transaction),
          { writes := isWrite
            target := found
            aligned := accepts.aligned
            response := response
            whole := of_decide_eq_true (assert_eq_ok.mp whole)
            index := rfl
            below := of_decide_eq_true (assert_eq_ok.mp below) }⟩
      · rw [if_neg response] at rest
        cases rest
        refine Or.inr ⟨fun hart completes => response completes.response, ?_⟩
        exact written.symm

end Transport

/-! ## Whole runs -/

/-- The controller, or the end of the simulation at the assertion on
`hart_eip`. -/
inductive Outcome : Type
  | running (plic : Plic)
  | assertionFailed

/-- What one event does.  A completion by a hart that exists can fail no
assertion but the one on `hart_eip`. -/
inductive Steps (parameters : Parameters) : Outcome → Event → Outcome → Prop
  | runs {plic later : Plic} {event : Event} {reply : List Byte}
      (stepped : step parameters event plic = .ok (reply, later)) :
      Steps parameters (.running plic) event (.running later)
  | fails {plic : Plic} {transaction : Transaction} {hart : ℕ}
      (completes : Completes parameters transaction hart)
      (stepped : step parameters (.transport transaction) plic =
        .error .assertion) :
      Steps parameters (.running plic) (.transport transaction) .assertionFailed

/-- No interrupt is lost: while no notification is outstanding, the flag is set
for every hart with an interrupt due, and the assertion has not failed. -/
def FlagsHold (parameters : Parameters) : Outcome → Prop
  | .running plic => plic.notified = false → ∀ hart < parameters.numberCores,
      plic.Due parameters hart → plic.hartEip hart = true
  | .assertionFailed => False

/-- The event leaves the flags right, judged from the state before it: a write
must leave no hart with an interrupt due and its flag clear unless the thread is
to run, and must not complete an interrupt there in any case. -/
def LeavesFlagsRight (parameters : Parameters) : Outcome → Event → Prop
  | .running plic, .transport transaction =>
      transaction.command = .write →
        (∀ hart, Completes parameters transaction hart →
          plic.Due parameters hart → plic.hartEip hart = true) ∧
        (plic.notified = false → ∀ hart < parameters.numberCores,
          (plic.written parameters transaction).Due parameters hart →
            plic.hartEip hart = true)
  | _, _ => True

section Flags

variable {parameters : Parameters} {plic later : Plic}

/-- A change of lines and of other flags leaves what is due alone. -/
theorem due_setEip_setLine (hart other : ℕ) (flag line : Bool) :
    ((plic.setEip hart flag).setLine hart line).Due parameters other ↔
      plic.Due parameters other :=
  due_congr rfl rfl rfl rfl

theorem due_setLine (hart other : ℕ) (line : Bool) :
    (plic.setLine hart line).Due parameters other ↔ plic.Due parameters other :=
  due_congr rfl rfl rfl rfl

theorem flags_completion {transaction : Transaction} {hart : ℕ}
    {reply : List Byte} (completes : Completes parameters transaction hart)
    (hold : FlagsHold parameters (.running plic))
    (transported : transport parameters transaction plic = .ok (reply, later)) :
    FlagsHold parameters (.running later) ∧
      LeavesFlagsRight parameters (.running plic) (.transport transaction) := by
  obtain ⟨hasPending, due, effect⟩ := transport_of_completes plic completes
  obtain ⟨notified, eip, _⟩ := notified_written parameters transaction plic
  have same := due_written_of_completes plic completes
  rw [transported] at effect
  have raised : plic.Due parameters hart → plic.hartEip hart = true := by
    intro isDue
    rw [if_pos (due.mpr isDue)] at effect
    apply Decidable.byContradiction
    intro clear
    rw [if_neg clear] at effect
    cases effect
  constructor
  · intro quiet other below isDue
    cases hasPending with
    | true =>
        have isRaised := raised (due.mp rfl)
        rw [if_pos rfl, if_pos isRaised] at effect
        cases effect
        rw [due_setLine, same] at isDue
        have held := hold (notified.symm.trans quiet) other below isDue
        exact (congrFun eip other).trans held
    | false =>
        rw [if_neg Bool.false_ne_true] at effect
        cases effect
        rw [due_setEip_setLine, same] at isDue
        have held := hold (notified.symm.trans quiet) other below isDue
        have different : other ≠ hart := by
          rintro rfl
          exact Bool.false_ne_true (due.mpr isDue)
        change Function.update (plic.written parameters transaction).hartEip hart
          false other = true
        rw [Function.update_of_ne different, eip, held]
  · intro _
    constructor
    · intro other another isDue
      have equal : other = hart := another.index.symm.trans completes.index
      rw [equal] at isDue ⊢
      exact raised isDue
    · intro quiet other below isDue
      exact hold quiet other below ((same other).mp isDue)

/-- A step that is carried out leaves the flags right exactly if it meets the
condition. -/
theorem flags_step {event : Event} {reply : List Byte}
    (hold : FlagsHold parameters (.running plic))
    (stepped : step parameters event plic = .ok (reply, later)) :
    FlagsHold parameters (.running later) ↔
      LeavesFlagsRight parameters (.running plic) event := by
  cases event with
  | trigger irq =>
      obtain ⟨_, triggered, same⟩ := bind_eq_ok.mp stepped
      cases same
      rw [Plic.gatewayTriggerInterrupt] at triggered
      obtain ⟨_, _, triggered⟩ := bind_eq_ok.mp triggered
      obtain ⟨_, _, same⟩ := bind_eq_ok.mp triggered
      cases same
      simp [FlagsHold, LeavesFlagsRight]
  | wake =>
      refine iff_of_true ?_ trivial
      by_cases awake : plic.notified = true
      · rw [step, if_pos awake] at stepped
        obtain ⟨_, ran, same⟩ := bind_eq_ok.mp stepped
        cases same
        obtain ⟨final, runs, _, enabled, pending, priority, config, asserted⟩ :=
          run_eq parameters plic
        rw [runs] at ran
        cases ran
        intro _ hart below isDue
        apply asserted hart below
        refine (due_congr enabled pending priority ?_).mp isDue
        rw [Plic.threshold, Plic.threshold, config]
      · rw [step, if_neg awake] at stepped
        cases stepped
        exact hold
  | transport transaction =>
      cases isCommand : transaction.command with
      | read =>
          obtain ⟨notified, eip, _, due⟩ := transport_read isCommand stepped
          refine iff_of_true ?_ ?_
          · intro quiet hart below isDue
            rw [eip]
            exact hold (notified.symm.trans quiet) hart below (due hart isDue)
          · intro isWrite
            rw [isCommand] at isWrite
            cases isWrite
      | write =>
          rcases transport_write isCommand stepped with completes | programs
          · obtain ⟨hart, completes⟩ := completes
            have both := flags_completion completes hold stepped
            exact iff_of_true both.1 both.2
          · obtain ⟨idle, rfl⟩ := programs
            obtain ⟨notified, eip, _⟩ :=
              notified_written parameters transaction plic
            simp only [FlagsHold, LeavesFlagsRight, isCommand, idle, notified,
              eip, false_implies, implies_true, true_and, true_implies]
      | ignore =>
          obtain ⟨_, _, processed⟩ := route_eq_ok.mp stepped
          have command := RegisterRange.process_command processed
          simp [isCommand] at command

end Flags

theorem flagsHold_reset (parameters : Parameters) :
    FlagsHold parameters (.running (.reset parameters)) := by
  rintro _ hart _ ⟨irq, _, _, _, pending, _⟩
  rw [Plic.pending, hasBit_eq] at pending
  simp [Plic.reset, Storage.word, Storage.zeroed] at pending

/-- Along every sequence of triggers, transactions and turns of the thread, no
interrupt is lost exactly if every step meets the condition. -/
theorem flagsHold_iff (parameters : Parameters) (events : List Event) :
    EveryState (Steps parameters) (FlagsHold parameters) events
        (.running (.reset parameters)) ↔
      EveryStep (Steps parameters) (LeavesFlagsRight parameters) events
        (.running (.reset parameters)) := by
  have unconditional : ∀ outcome event later, True →
      Steps parameters outcome event later → True := fun _ _ _ _ _ => trivial
  apply everyState_iff_everyStep unconditional
  · intro outcome event later _ hold steps
    cases steps with
    | runs stepped => exact flags_step hold stepped
    | @fails plic transaction hart completes stepped =>
        refine iff_of_false id fun right => ?_
        have asserted := (right completes.writes).1 hart completes
        obtain ⟨hasPending, due, effect⟩ := transport_of_completes plic completes
        rw [step] at stepped
        rw [stepped] at effect
        cases hasPending with
        | true =>
            rw [if_pos rfl, if_pos (asserted (due.mp rfl))] at effect
            cases effect
        | false =>
            rw [if_neg Bool.false_ne_true] at effect
            cases effect
  · trivial
  · exact flagsHold_reset parameters

/-! ## An interrupt that is enabled late -/

/-- The events of a list, one after another. -/
def execute (parameters : Parameters) : List Event → Plic → Except Failure Plic
  | [], plic => .ok plic
  | event :: events, plic => do
      let (_, later) ← step parameters event plic
      execute parameters events later

theorem everyState_execute {parameters : Parameters} {holds : Outcome → Prop}
    {events rest : List Event} {plic later : Plic}
    (executed : execute parameters events plic = .ok later)
    (every : EveryState (Steps parameters) holds (events ++ rest)
      (.running plic)) :
    EveryState (Steps parameters) holds rest (.running later) := by
  induction events generalizing plic with
  | nil =>
      cases executed
      exact every
  | cons event events inductionHypothesis =>
      obtain ⟨⟨reply, next⟩, stepped, executed⟩ := bind_eq_ok.mp executed
      exact inductionHypothesis executed (every.2 _ (.runs stepped))

/-- Interrupt 3 is triggered and the thread runs before it is enabled. -/
def lateEnable : List Event :=
  [.trigger 3, .wake, .transport ⟨.write, 0x2000, bytesOf 0b1000⟩]

/-- The guest completes an interrupt. -/
def completion : Transaction :=
  ⟨.write, 0x200004, bytesOf 3⟩

theorem lateEnable_executed :
    (match execute .hifive lateEnable (.reset .hifive) with
      | .ok plic => !plic.notified && !plic.hartEip 0 && plic.enabled 0 3 &&
          plic.pending 3 && decide (plic.threshold 0 < plic.priority 3)
      | .error _ => false) = true := by
  decide

theorem completes_completion : Completes .hifive completion 0 where
  writes := rfl
  target := by decide
  aligned := by decide
  response := by decide
  whole := by decide
  index := by decide
  below := by decide

/-- The flag stays clear, and the completion fails its assertion. -/
theorem not_flagsHold_lateEnable :
    ¬ EveryState (Steps .hifive) (FlagsHold .hifive) lateEnable
        (.running (.reset .hifive)) ∧
      ¬ EveryState (Steps .hifive) (fun outcome => outcome ≠ .assertionFailed)
        (lateEnable ++ [.transport completion])
        (.running (.reset .hifive)) := by
  have executed := lateEnable_executed
  cases outcome : execute .hifive lateEnable (.reset .hifive) with
  | error failure => simp [outcome] at executed
  | ok plic =>
      simp only [outcome, Bool.and_eq_true, Bool.not_eq_true',
        decide_eq_true_eq] at executed
      obtain ⟨⟨⟨⟨quiet, clear⟩, enabled⟩, pending⟩, above⟩ := executed
      have isDue : plic.Due .hifive 0 :=
        ⟨3, by decide, by decide, enabled, pending, above⟩
      constructor
      · intro every
        rw [← List.append_nil lateEnable] at every
        have hold := everyState_execute outcome every
        rw [hold quiet 0 (by decide) isDue] at clear
        cases clear
      · intro every
        obtain ⟨hasPending, due, effect⟩ :=
          transport_of_completes plic completes_completion
        rw [if_pos (due.mpr isDue), clear, if_neg Bool.false_ne_true] at effect
        exact (everyState_execute outcome every).2 _
          (.fails completes_completion effect) rfl

end Fe310Plic

end RiscvVp
