import RiscvVp.Fu540Plic.Selection

/-!
# What an access does

A transaction that is carried out claims, completes, programs a register or
leaves the controller as it is.
-/

namespace RiscvVp

namespace Fu540Plic

open Device

/-- The register range that a transaction is routed to. -/
def target (harts : ℕ) (transaction : Transaction) : Option Register :=
  (registers harts).find? fun register =>
    register.range.contains transaction.address

/-- The transaction is routed to the claim word of the context. -/
structure AddressesClaim (harts : ℕ) (transaction : Transaction)
    (context : Context) : Prop where
  target : target harts transaction = some (.context context)
  offset : (Register.context context).range.toLocal transaction.address = 4

structure Claims (harts : ℕ) (transaction : Transaction) (context : Context) :
    Prop extends AddressesClaim harts transaction context where
  reads : transaction.command = .read

structure Completes (harts : ℕ) (transaction : Transaction)
    (context : Context) : Prop
    extends AddressesClaim harts transaction context where
  writes : transaction.command = .write

theorem AddressesClaim.unique {harts : ℕ} {transaction : Transaction}
    {first second : Context} (one : AddressesClaim harts transaction first)
    (another : AddressesClaim harts transaction second) : first = second := by
  have same := one.target.symm.trans another.target
  simpa using same

/-- `std::min(value, limit)`. -/
def capped (limit value : Word) : Word :=
  if limit < value then limit else value

namespace Plic

variable (plic : Plic)

/-- A successful claim of an interrupt, or of none. -/
def claimed (context : Context) (irq : ℕ) : Plic :=
  { plic with
    hartContext := Function.update plic.hartContext context
      ((plic.hartContext context).setWord 1 (BitVec.ofNat 32 irq))
    pendingInterrupts :=
      if irq = 0 then plic.pendingInterrupts
      else plic.pendingInterrupts.setWord (getIdx irq)
        (plic.pendingInterrupts.word (getIdx irq) &&& ~~~getOff irq) }

/-- The registers as a write leaves them: priorities and thresholds are capped
in the first word that is written, pending bits are read-only. -/
def stored (register : Register) (offset : ℕ) (data : List Byte) : Plic :=
  match register with
  | .priorities =>
      let mem := plic.interruptPriorities.copy offset data
      { plic with
        interruptPriorities :=
          mem.setWord (offset / 4) (capped maxPrio (mem.word (offset / 4))) }
  | .pending => plic
  | .enable context =>
      { plic with
        enabledIrqs := Function.update plic.enabledIrqs context
          ((plic.enabledIrqs context).copy offset data) }
  | .context context =>
      let mem := (plic.hartContext context).copy offset data
      { plic with
        hartContext := Function.update plic.hartContext context
          (if isClaimAccess offset then mem
           else mem.setWord 0 (capped maxThr (mem.word 0))) }

/-- The registers as the transaction leaves them when it is a write. -/
def programmedBy (harts : ℕ) (transaction : Transaction) : Plic :=
  match target harts transaction with
  | some register =>
      plic.stored register (register.range.toLocal transaction.address)
        transaction.data
  | none => plic

end Plic

/-- What an access that is carried out leaves and replies. -/
inductive Effect (harts : ℕ) (plic : Plic) (transaction : Transaction) :
    List Byte → Plic → Prop
  | read {reply : List Byte} (reads : transaction.command = .read)
      (idle : ∀ context, ¬ AddressesClaim harts transaction context) :
      Effect harts plic transaction reply plic
  | claim {context : Context} {irq : ℕ}
      (claims : Claims harts transaction context)
      (selected : plic.nextPendingIrq context true = .ok irq) :
      Effect harts plic transaction (bytesOf (BitVec.ofNat 32 irq))
        (plic.claimed context irq)
  | complete {reply : List Byte} {context : Context}
      (completes : Completes harts transaction context)
      (whole : transaction.data.length = 4) :
      Effect harts plic transaction reply
        ((plic.programmedBy harts transaction).setLine context false)
  | program {reply : List Byte} (writes : transaction.command = .write)
      (idle : ∀ context, ¬ AddressesClaim harts transaction context) :
      Effect harts plic transaction reply (plic.programmedBy harts transaction)

theorem clearPending_eq (plic : Plic) {irq : ℕ} (positive : 0 < irq)
    (atMost : irq ≤ numIrq) :
    plic.clearPending irq = .ok { plic with
      pendingInterrupts := plic.pendingInterrupts.setWord (getIdx irq)
        (plic.pendingInterrupts.word (getIdx irq) &&& ~~~getOff irq) } := by
  have inside : getIdx irq < 8 / 4 := by
    simp only [getIdx, numIrq] at *
    omega
  have guard : (decide (0 < irq) && decide (irq ≤ numIrq)) = true := by
    simp [positive, atMost]
  simp only [Plic.clearPending, guard, element_of_lt inside]
  rfl

/-- `read_hartctx` on the claim word. -/
theorem readHartctx_claim (plic : Plic) (context : Context) :
    readHartctx context ⟨4, 4⟩ plic =
      (plic.nextPendingIrq context true).map fun irq =>
        (true, plic.claimed context irq) := by
  have isClaim : isClaimAccess 4 = true := by
    decide
  cases selected : plic.nextPendingIrq context true with
  | error failure =>
      simp [readHartctx, isClaim, selected, bind, Except.bind, Except.map, assert]
  | ok irq =>
      simp only [readHartctx, isClaim, selected, if_true, bind, Except.bind,
        decide_true, assert_true, Except.map]
      by_cases none : irq = 0
      · simp [none, Plic.claimed, pure, Except.pure]
      · have offered : plic.Offered context irq := by
          obtain ⟨_, _, ⟨same, _⟩ | elected⟩ :=
            plic.nextPendingIrq_eq_ok.mp selected
          · exact absurd same none
          · exact elected.stands.offered
        simp [none, clearPending_eq _ offered.positive offered.atMost,
          Plic.claimed, pure, Except.pure]

theorem slice_claimed (plic : Plic) (context : Context) (irq : ℕ) :
    ((plic.claimed context irq).hartContext context).slice 4 4 =
      bytesOf (BitVec.ofNat 32 irq) := by
  simpa [Plic.claimed] using
    Storage.slice_setWord_one (plic.hartContext context) (BitVec.ofNat 32 irq)

/-- `read_hartctx` on the threshold word. -/
theorem readHartctx_threshold {context : Context} {plic later : Plic}
    {size : ℕ} {proceeds : Bool}
    (accessed : readHartctx context ⟨0, size⟩ plic = .ok (proceeds, later)) :
    later = plic := by
  have notClaim : isClaimAccess 0 = false := by
    decide
  simp only [readHartctx, bind_eq_ok, notClaim, Bool.false_eq_true,
    if_false] at accessed
  obtain ⟨_, _, _, _, same⟩ := accessed
  cases same
  rfl

/-- An aligned word of a context: its offset is 0 or 4. -/
theorem context_offset {context : Context} {transaction : Transaction}
    (accepts : (Register.context context).range.Accepts transaction)
    (whole : transaction.data.length = 4) :
    (Register.context context).range.toLocal transaction.address = 0 ∨
      (Register.context context).range.toLocal transaction.address = 4 := by
  have aligned : transaction.address % 4 = 0 := accepts.aligned
  have fits := accepts.fits
  have contains := accepts.contains
  simp only [Register.range, RegisterRange.toLocal, RegisterRange.contains,
    RegisterRange.last, contextBase, contextPerHart, hartRegSize, whole,
    Bool.and_eq_true] at *
  omega

theorem context_read {harts : ℕ} {plic later : Plic} {transaction : Transaction}
    {reply : List Byte} {context : Context}
    (found : target harts transaction = some (.context context))
    (isRead : transaction.command = .read)
    (processed : (Register.context context).range.process transaction plic =
      .ok (reply, later)) :
    Effect harts plic transaction reply later := by
  obtain ⟨accepts, proceeds, middle, before, rest⟩ :=
    RegisterRange.process_read isRead processed
  change readHartctx context ((Register.context context).range.info transaction)
    plic = .ok (proceeds, middle) at before
  have whole : transaction.data.length = 4 := by
    simp only [readHartctx, bind_eq_ok, assert_eq_ok, decide_eq_true_eq]
      at before
    obtain ⟨_, _, _, whole, _⟩ := before
    exact whole
  rcases context_offset accepts whole with first | second
  · have untouched : middle = plic := by
      rw [RegisterRange.info, first] at before
      exact readHartctx_threshold before
    have same : later = middle := by
      cases proceeds with
      | true => exact (Except.ok.inj rest.2).symm
      | false => exact rest.2
    rw [same, untouched]
    refine .read isRead fun other addresses => ?_
    have equal := addresses.target.symm.trans found
    have zero : (0 : ℕ) = 4 := by
      rw [← first, ← addresses.offset]
      simp only [Option.some.injEq, Register.context.injEq] at equal
      rw [equal]
    omega
  · rw [RegisterRange.info, second, whole] at before
    rw [readHartctx_claim] at before
    obtain ⟨irq, selected, same⟩ := map_eq_ok.mp before
    obtain ⟨rfl, rfl⟩ := Prod.mk.inj same
    have replied : reply = bytesOf (BitVec.ofNat 32 irq) := by
      rw [rest.1, RegisterRange.info, second, whole]
      exact slice_claimed plic context irq
    have same : later = plic.claimed context irq := (Except.ok.inj rest.2).symm
    rw [replied, same]
    exact .claim ⟨⟨found, second⟩, isRead⟩ selected

theorem programmedBy_eq {harts : ℕ} {transaction : Transaction}
    {register : Register} (plic : Plic)
    (found : target harts transaction = some register) :
    plic.programmedBy harts transaction =
      plic.stored register (register.range.toLocal transaction.address)
        transaction.data := by
  simp only [Plic.programmedBy, found]

theorem context_write {harts : ℕ} {plic later : Plic} {transaction : Transaction}
    {reply : List Byte} {context : Context}
    (found : target harts transaction = some (.context context))
    (isWrite : transaction.command = .write)
    (processed : (Register.context context).range.process transaction plic =
      .ok (reply, later)) :
    Effect harts plic transaction reply later := by
  obtain ⟨accepts, proceeds, middle, before, rest⟩ :=
    RegisterRange.process_write isWrite processed
  cases before
  change writeHartctx context ((Register.context context).range.info transaction)
    ((Register.context context).range.store _ _ plic) = .ok later at rest
  simp only [writeHartctx, bind_eq_ok, assert_eq_ok, RegisterRange.info] at rest
  obtain ⟨_, _, _, sized, rest⟩ := rest
  have whole : transaction.data.length = 4 := of_decide_eq_true sized
  have programmed := programmedBy_eq plic found
  rcases context_offset accepts whole with first | second
  · have notClaim : isClaimAccess 0 = false := by
      decide
    simp only [first, notClaim, Bool.false_eq_true, if_false] at rest
    cases rest
    have idle : ∀ other, ¬ AddressesClaim harts transaction other := by
      intro other addresses
      have equal := addresses.target.symm.trans found
      simp only [Option.some.injEq, Register.context.injEq] at equal
      have second := addresses.offset
      rw [equal, first] at second
      omega
    have same : plic.programmedBy harts transaction = _ := programmed
    rw [first] at same
    have effect : Effect harts plic transaction reply _ := .program isWrite idle
    rw [same] at effect
    simpa [Plic.stored, notClaim, RegisterRange.store, Register.range, capped]
      using effect
  · have isClaim : isClaimAccess 4 = true := by
      decide
    simp only [second, isClaim, if_true] at rest
    cases rest
    have effect : Effect harts plic transaction reply _ :=
      .complete ⟨⟨found, second⟩, isWrite⟩ whole
    rw [programmed, second] at effect
    simpa [Plic.stored, isClaim, RegisterRange.store, Register.range] using effect

theorem transport_effect {harts : ℕ} {plic later : Plic}
    {transaction : Transaction} {reply : List Byte}
    (transported : transport harts transaction plic = .ok (reply, later)) :
    Effect harts plic transaction reply later := by
  obtain ⟨register, found, processed⟩ := route_eq_ok.mp transported
  change target harts transaction = some register at found
  have elsewhere : (∀ context, register ≠ .context context) →
      ∀ context, ¬ AddressesClaim harts transaction context := by
    intro other context addresses
    have equal := addresses.target.symm.trans found
    simp only [Option.some.injEq] at equal
    exact other context equal.symm
  rcases RegisterRange.process_command processed with isRead | isWrite
  · cases register with
    | context context => exact context_read found isRead processed
    | priorities | pending | enable =>
        obtain ⟨_, proceeds, middle, before, rest⟩ :=
          RegisterRange.process_read isRead processed
        cases before
        cases rest.2
        exact .read isRead (elsewhere (by simp))
  · cases register with
    | context context => exact context_write found isWrite processed
    | priorities =>
        obtain ⟨accepts, proceeds, middle, before, rest⟩ :=
          RegisterRange.process_write isWrite processed
        cases before
        change writeIrqPrios (Register.priorities.range.info transaction)
          (Register.priorities.range.store _ _ plic) = .ok later at rest
        simp only [writeIrqPrios, bind_eq_ok, RegisterRange.info] at rest
        obtain ⟨_, _, elem, read, same⟩ := rest
        obtain rfl := element_eq_ok read
        cases same
        have effect : Effect harts plic transaction reply _ :=
          .program isWrite (elsewhere (by simp))
        rwa [programmedBy_eq plic found] at effect
    | pending =>
        obtain ⟨_, proceeds, middle, before, rest⟩ :=
          RegisterRange.process_write isWrite processed
        cases before
        cases rest
        have effect : Effect harts plic transaction reply _ :=
          .program isWrite (elsewhere (by simp))
        rwa [programmedBy_eq plic found] at effect
    | enable context =>
        obtain ⟨_, proceeds, middle, before, rest⟩ :=
          RegisterRange.process_write isWrite processed
        cases before
        cases rest
        have effect : Effect harts plic transaction reply _ :=
          .program isWrite (elsewhere (by simp))
        rwa [programmedBy_eq plic found] at effect

end Fu540Plic

end RiscvVp
