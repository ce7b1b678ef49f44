import RiscvVp.Fu540Plic.Run

/-!
# Claims

A claim read must return the interrupt of highest priority among those that
are enabled in the context and pending, the priority being the one programmed
for that interrupt; priority 0 means that the interrupt never interrupts.

`next_pending_irq` ranks each interrupt by the priority of its follower.  The
two rankings agree on the winner in some states only, and interrupt 53 has no
follower: once it is enabled and pending, the claim reads past the array.
-/

namespace RiscvVp

namespace Fu540Plic

open Device Election

/-- The read of a context's claim word. -/
def claimRead (context : Context) (buffer : List Byte) : Transaction :=
  ⟨.read, (Register.context context).range.start + 4, buffer⟩

theorem claim_eq (plic : Plic) (context : Context) {buffer : List Byte}
    (whole : buffer.length = 4) :
    (Register.context context).range.process (claimRead context buffer) plic =
      (plic.nextPendingIrq context true).map fun irq =>
        (bytesOf (BitVec.ofNat 32 irq), plic.claimed context irq) := by
  have aligned : ((Register.context context).range.start + 4) % 4 = 0 := by
    simp only [Register.range, contextBase, contextPerHart]
    omega
  have inside : (Register.context context).range.contains
      ((Register.context context).range.start + 4) = true := by
    simp only [Register.range, RegisterRange.contains, RegisterRange.last,
      hartRegSize]
    simp
  have offset : (Register.context context).range.toLocal
      ((Register.context context).range.start + 4) = 4 := by
    simp [RegisterRange.toLocal]
  have alignment : (Register.context context).range.alignment = 4 := rfl
  have size : (Register.context context).range.size = 8 := rfl
  have callback : (Register.context context).range.preReadCallback =
    readHartctx context := rfl
  simp only [RegisterRange.process, claimRead, RegisterRange.read, alignment, aligned, whole,
    inside, offset, size, callback, readHartctx_claim]
  cases selected : plic.nextPendingIrq context true with
  | error failure => rfl
  | ok irq =>
      change Except.ok (((plic.claimed context irq).hartContext context).slice 4 4,
        plic.claimed context irq) = _
      rw [slice_claimed]
      rfl

/-! ## Where the claim words are mapped -/

theorem mem_hartContexts {context : Context} {hart : ℕ} :
    context ∈ hartContexts hart ↔
      context.hart = hart ∧ context.isMissing = false := by
  obtain ⟨owner, level⟩ := context
  cases hart with
  | zero => cases level <;> simp [hartContexts, Context.isMissing]
  | succ hart =>
      cases level with
      | machine => simp [hartContexts, Context.isMissing]
      | supervisor =>
          simp [hartContexts, Context.isMissing]
          omega

theorem mem_contexts {harts : ℕ} {context : Context} :
    context ∈ contexts harts ↔
      context.hart < harts ∧ context.isMissing = false := by
  simp [contexts, List.mem_flatMap, mem_hartContexts]

theorem contexts_succ (harts : ℕ) :
    contexts (harts + 1) = contexts harts ++ hartContexts harts := by
  simp [contexts, List.range_succ]

theorem length_contexts_succ (harts : ℕ) :
    (contexts (harts + 1)).length = 2 * harts + 1 := by
  induction harts with
  | zero => rfl
  | succ harts inductionHypothesis =>
      rw [contexts_succ, List.length_append, inductionHypothesis]
      simp [hartContexts]
      omega

theorem createHartRegs_append (inc addr : ℕ) (first second : List Context) :
    createHartRegs inc addr (first ++ second) =
      createHartRegs inc addr first ++
        createHartRegs inc (addr + inc * first.length) second := by
  induction first generalizing addr with
  | nil => simp [createHartRegs]
  | cons context first inductionHypothesis =>
      have addresses : addr + inc + inc * first.length =
          addr + inc * (first.length + 1) := by
        rw [Nat.mul_add]
        omega
      simp [createHartRegs, inductionHypothesis, addresses]

/-- The register ranges of the contexts start where `create_hart_regs` puts
them. -/
theorem createHartRegs_contexts (inc addr harts : ℕ) :
    createHartRegs inc addr (contexts harts) =
      (contexts harts).map fun context =>
        (context, addr + inc * context.index) := by
  induction harts with
  | zero => rfl
  | succ harts inductionHypothesis =>
      rw [contexts_succ, createHartRegs_append, List.map_append,
        inductionHypothesis]
      congr 1
      cases harts with
      | zero => rfl
      | succ harts =>
          rw [length_contexts_succ]
          simp only [hartContexts, createHartRegs, Context.index, List.map_cons,
            List.map_nil, Nat.mul_add, Nat.mul_one, Nat.mul_two, Nat.add_assoc]

theorem index_injective {first second : Context}
    (present : first.isMissing = false) (alsoPresent : second.isMissing = false)
    (same : first.index = second.index) : first = second := by
  obtain ⟨hart, level⟩ := first
  obtain ⟨other, otherLevel⟩ := second
  cases hart <;> cases other <;> cases level <;> cases otherLevel <;>
    simp [Context.index, Context.isMissing] at * <;> omega

theorem index_lt {harts : ℕ} {context : Context}
    (member : context ∈ contexts harts) : context.index < 2 * harts := by
  have below := (mem_contexts.mp member).1
  obtain ⟨hart, level⟩ := context
  cases hart <;> cases level <;> simp [Context.index] at * <;> omega

/-- The enable registers stay below the context registers, so a claim read
reaches the context it is meant for. -/
theorem claims_claimRead {harts : ℕ} (few : harts ≤ 8160) {context : Context}
    (member : context ∈ contexts harts) (buffer : List Byte) :
    Claims harts (claimRead context buffer) context := by
  have present := (mem_contexts.mp member).2
  have start : ∀ other : Context, (Register.context other).range.start =
      0x200000 + 0x1000 * other.index := fun _ => rfl
  have last : ∀ other : Context, (Register.context other).range.last =
      0x200000 + 0x1000 * other.index + 7 := fun _ => rfl
  have inside : ∀ other ∈ contexts harts,
      (Register.context other).range.contains
        ((Register.context context).range.start + 4) = true →
      other = context := by
    intro other otherMember contained
    simp only [RegisterRange.contains, start, last, Bool.and_eq_true,
      decide_eq_true_eq] at contained
    exact index_injective (mem_contexts.mp otherMember).2 present (by omega)
  have own : (Register.context context).range.contains
      ((Register.context context).range.start + 4) = true := by
    simp only [RegisterRange.contains, start, last, Bool.and_eq_true,
      decide_eq_true_eq]
    omega
  have earlier : ∀ register ∈
      [Register.priorities, .pending] ++ (contexts harts).map .enable,
      ¬ register.range.contains
        ((Register.context context).range.start + 4) = true := by
    intro register listed contained
    rw [start] at contained
    simp only [List.cons_append, List.nil_append, List.mem_cons, List.mem_map]
      at listed
    rcases listed with rfl | rfl | ⟨other, otherMember, rfl⟩
    · simp [Register.range, RegisterRange.contains, RegisterRange.last, numIrq]
        at contained
      omega
    · simp [Register.range, RegisterRange.contains, RegisterRange.last]
        at contained
      omega
    · have below := index_lt otherMember
      simp [Register.range, RegisterRange.contains, RegisterRange.last,
        enableBase, enablePerHart, hartRegSize] at contained
      omega
  have found : target harts (claimRead context buffer) =
      some (.context context) := by
    rw [target, registers, List.find?_append,
      List.find?_eq_none.mpr (by simpa [claimRead] using earlier),
      Option.none_or, List.find?_map]
    cases search : (contexts harts).find? _ with
    | none =>
        have nowhere := List.find?_eq_none.mp search context member
        exact absurd own (by simpa [claimRead] using nowhere)
    | some other =>
        have contained := List.find?_some search
        have otherMember := List.mem_of_find?_eq_some search
        rw [inside other otherMember (by simpa [claimRead] using contained)]
        rfl
  refine ⟨⟨found, ?_⟩, rfl⟩
  simp [claimRead, RegisterRange.toLocal]

/-! ## The claimed interrupt -/

/-- An interrupt that may interrupt the context: enabled, pending and of a
positive priority. -/
def Plic.Interrupting (plic : Plic) (context : Context) (irq : ℕ) : Prop :=
  plic.Offered context irq ∧ 0 < plic.programmed irq

/-- The claim read of a context does what a claim must do, and the search for
an interrupt stays within the priority array. -/
structure ClaimsHighest (plic : Plic) (context : Context) : Prop where
  claims : ∀ buffer : List Byte, buffer.length = 4 → ∃ irq later,
    (Register.context context).range.process (claimRead context buffer) plic =
        .ok (bytesOf (BitVec.ofNat 32 irq), later) ∧
      ElectedElse (plic.Interrupting context) plic.programmed 0 irq ∧
      ∀ other, 0 < other →
        (later.pending other = true ↔ plic.pending other = true ∧ other ≠ irq)
  inside : ∀ ignth, plic.nextPendingIrq context ignth ≠ .error .assertion

/-- The interrupt that the programmed priorities elect is also the one that the
following priorities elect. -/
def FollowersAgree (plic : Plic) (context : Context) : Prop :=
  ∃ irq, ElectedElse (plic.Interrupting context) plic.programmed 0 irq ∧
    ElectedElse
      (fun irq => plic.Offered context irq ∧ 0 < plic.following irq)
      plic.following 0 irq

theorem selectable_ignoring (plic : Plic) (context : Context) :
    plic.Selectable context true =
      fun irq => plic.Offered context irq ∧ 0 < plic.following irq := by
  funext irq
  simp [Plic.Selectable, Plic.admits]

theorem claimsHighest_of_followersAgree {plic : Plic} {context : Context}
    (present : context.isMissing = false)
    (last : ¬ plic.Offered context numIrq)
    (agree : FollowersAgree plic context) : ClaimsHighest plic context where
  claims := by
    intro buffer whole
    obtain ⟨irq, highest, selected⟩ := agree
    rw [← selectable_ignoring] at selected
    have search : plic.nextPendingIrq context true = .ok irq :=
      plic.nextPendingIrq_eq_ok.mpr ⟨present, last, selected⟩
    refine ⟨irq, plic.claimed context irq, ?_, highest, ?_⟩
    · rw [claim_eq plic context whole, search]
      rfl
    · intro other positive
      rw [plic.pending_claimed context positive]
      simp
  inside := by
    intro ignth
    rw [plic.nextPendingIrq_eq present, if_neg last]
    simp

theorem followersAgree_of_claimsHighest {plic : Plic} {context : Context}
    (present : context.isMissing = false)
    (highest : ClaimsHighest plic context) :
    ¬ plic.Offered context numIrq ∧ FollowersAgree plic context := by
  have last : ¬ plic.Offered context numIrq := by
    intro offered
    apply highest.inside true
    rw [plic.nextPendingIrq_eq present, if_pos offered]
  obtain ⟨irq, later, claimed, elected, _⟩ :=
    highest.claims [0, 0, 0, 0] rfl
  rw [claim_eq plic context rfl] at claimed
  obtain ⟨found, search, same⟩ := map_eq_ok.mp claimed
  have selected := (plic.nextPendingIrq_eq_ok.mp search).2.2
  rw [selectable_ignoring] at selected
  have bound : ∀ {candidate : ℕ → Prop} {rank : ℕ → ℕ} {winner : ℕ},
      (∀ irq, candidate irq → plic.Offered context irq) →
      ElectedElse candidate rank 0 winner → winner ≤ numIrq := by
    rintro candidate rank winner offers (⟨rfl, _⟩ | elected)
    · exact Nat.zero_le _
    · exact (offers _ elected.stands).atMost
  have foundBound := bound (fun _ candidate => candidate.1) selected
  have irqBound := bound (fun _ candidate => candidate.1) elected
  have words := congrArg BitVec.toNat
    (bytesOf_injective (Prod.mk.inj same).1)
  have equal : found = irq := by
    simp only [BitVec.toNat_ofNat, numIrq] at *
    omega
  exact ⟨last, irq, elected, equal ▸ selected⟩

/-! ## Claims and triggers -/

/-- The event triggers the interrupt. -/
def triggersIrq (irq : ℕ) : Event × List Byte → Bool
  | (.trigger other, _) => other.toNat == irq
  | _ => false

/-- The event reads the claim word of some context. -/
def readsClaim (harts : ℕ) (transaction : Transaction) : Bool :=
  match target harts transaction with
  | some (.context context) =>
      transaction.command == .read &&
        (Register.context context).range.toLocal transaction.address == 4
  | _ => false

/-- The event claims the interrupt. -/
def claimsIrq (harts irq : ℕ) : Event × List Byte → Bool
  | (.transport transaction, reply) =>
      readsClaim harts transaction && reply == bytesOf (BitVec.ofNat 32 irq)
  | _ => false

theorem readsClaim_of_claims {harts : ℕ} {transaction : Transaction}
    {context : Context} (claims : Claims harts transaction context) :
    readsClaim harts transaction = true := by
  simp [readsClaim, claims.target, claims.offset, claims.reads]

theorem not_readsClaim_of_idle {harts : ℕ} {transaction : Transaction}
    (idle : ∀ context, ¬ AddressesClaim harts transaction context) :
    readsClaim harts transaction = false := by
  cases found : target harts transaction with
  | none => simp [readsClaim, found]
  | some register =>
      cases register with
      | context context =>
          have offset : (Register.context context).range.toLocal
              transaction.address ≠ 4 := fun equal =>
            idle context ⟨found, equal⟩
          simp [readsClaim, found, offset]
      | priorities | pending | enable => simp [readsClaim, found]

/-- One event moves the balance of triggers and claims of an interrupt. -/
theorem balance_step {harts : ℕ} {plic later : Plic} {event : Event}
    {reply : List Byte}
    (stepped : step harts event plic = .ok (reply, later)) {irq : ℕ}
    (positive : 0 < irq) (atMost : irq ≤ numIrq) :
    (claimsIrq harts irq (event, reply)).toNat + (later.pending irq).toNat ≤
      (triggersIrq irq (event, reply)).toNat + (plic.pending irq).toNat := by
  cases event with
  | trigger other =>
      simp only [step, bind_eq_ok] at stepped
      obtain ⟨_, triggered, same⟩ := stepped
      cases same
      rw [plic.pending_trigger triggered]
      by_cases equal : irq = other.toNat
      · simp [claimsIrq, triggersIrq, equal]
      · simp [claimsIrq, triggersIrq, equal]
  | wake =>
      have kept : later.pendingInterrupts = plic.pendingInterrupts := by
        by_cases awake : plic.notified = true
        · simp only [step, if_pos awake, bind_eq_ok] at stepped
          obtain ⟨_, ran, same⟩ := stepped
          cases same
          rw [run_eq_ok ran]
        · simp only [step, if_neg awake] at stepped
          cases stepped
          rfl
      simp [claimsIrq, triggersIrq, Plic.pending, kept]
  | transport transaction =>
      cases transport_effect stepped with
      | read reads idle =>
          simp [claimsIrq, triggersIrq, not_readsClaim_of_idle idle]
      | @claim context claimed claims selected =>
          rw [plic.pending_claimed context positive]
          by_cases equal : irq = claimed
          · subst equal
            have offered : plic.Offered context irq := by
              obtain ⟨_, _, ⟨rfl, _⟩ | elected⟩ :=
                plic.nextPendingIrq_eq_ok.mp selected
              · omega
              · exact elected.stands.offered
            simp [claimsIrq, triggersIrq, readsClaim_of_claims claims,
              offered.pending]
          · have other : (bytesOf (BitVec.ofNat 32 claimed) ==
                bytesOf (BitVec.ofNat 32 irq)) = false := by
              refine beq_eq_false_iff_ne.mpr fun bytes => ?_
              have bound : claimed ≤ numIrq := by
                obtain ⟨_, _, ⟨rfl, _⟩ | elected⟩ :=
                  plic.nextPendingIrq_eq_ok.mp selected
                · exact Nat.zero_le _
                · exact elected.stands.offered.atMost
              have words := congrArg BitVec.toNat (bytesOf_injective bytes)
              simp only [BitVec.toNat_ofNat, numIrq] at *
              omega
            simp [claimsIrq, triggersIrq, other, equal]
      | complete completes whole =>
          have notClaim : readsClaim harts transaction = false := by
            simp [readsClaim, completes.target, completes.writes]
          simp [claimsIrq, triggersIrq, notClaim, Plic.setLine, Plic.pending,
            plic.pending_programmedBy]
      | program writes idle =>
          simp [claimsIrq, triggersIrq, not_readsClaim_of_idle idle,
            Plic.pending, plic.pending_programmedBy]

/-- Every claim of an interrupt uses up a trigger of it, and while its bit is
pending one trigger is not used up yet. -/
theorem claims_add_pending_le {harts : ℕ} {trace : List (Event × List Byte)}
    {plic : Plic} (run : Run harts trace plic) {irq : ℕ} (positive : 0 < irq)
    (atMost : irq ≤ numIrq) :
    trace.countP (claimsIrq harts irq) + (plic.pending irq).toNat ≤
      trace.countP (triggersIrq irq) := by
  induction run with
  | reset =>
      have none : Plic.reset.pending irq = false := by
        simp [Plic.pending, Plic.reset, Storage.word, Storage.zeroed]
      simp [none]
  | @step trace plic later event reply run stepped inductionHypothesis =>
      have moved := balance_step stepped positive atMost
      have counted : ∀ test : Event × List Byte → Bool,
          ((event, reply) :: trace).countP test =
            trace.countP test + (test (event, reply)).toNat := by
        intro test
        rw [List.countP_cons]
        cases test (event, reply) <;> rfl
      rw [counted, counted]
      omega

/-- A write that the priority range accepts names one of its elements. -/
theorem priorities_inside {transaction : Transaction}
    (accepts : Register.priorities.range.Accepts transaction) :
    Register.priorities.range.toLocal transaction.address / 4 < numIrq := by
  have last : Register.priorities.range.last = 4 + 4 * numIrq - 1 := rfl
  have contains := accepts.contains
  have start : Register.priorities.range.start = 4 := rfl
  simp only [RegisterRange.contains, RegisterRange.toLocal, last, start, numIrq,
    Bool.and_eq_true, decide_eq_true_eq] at *
  omega

/-- In every reachable state and for every context, a claim read is right, and
the search stays within the priority array, exactly when interrupt 53 is not
both enabled and pending and the priorities one place further elect the same
interrupt as the programmed ones.  No trigger is claimed twice, every write of a
priority stays within the array, the registers of the context are where
`create_hart_regs` puts them, and the bus leads the read there. -/
theorem claimsHighest_iff {harts : ℕ} {trace : List (Event × List Byte)}
    {plic : Plic} (run : Run harts trace plic) {context : Context}
    (member : context ∈ contexts harts) :
    (ClaimsHighest plic context ↔
      ¬ plic.Offered context numIrq ∧ FollowersAgree plic context) ∧
    (∀ irq, 0 < irq → irq ≤ numIrq →
      trace.countP (claimsIrq harts irq) ≤ trace.countP (triggersIrq irq)) ∧
    (∀ transaction, Register.priorities.range.Accepts transaction →
      Register.priorities.range.toLocal transaction.address / 4 < numIrq) ∧
    (context, (Register.context context).range.start) ∈
      createHartRegs contextPerHart contextBase (contexts harts) ∧
    (harts ≤ 8160 → ∀ buffer, transport harts (claimRead context buffer) plic =
      (Register.context context).range.process (claimRead context buffer)
        plic) := by
  have present := (mem_contexts.mp member).2
  refine ⟨⟨followersAgree_of_claimsHighest present, fun agrees =>
    claimsHighest_of_followersAgree present agrees.1 agrees.2⟩, ?_, ?_, ?_, ?_⟩
  · intro irq positive atMost
    have balance := claims_add_pending_le run positive atMost
    omega
  · intro transaction accepts
    exact priorities_inside accepts
  · rw [createHartRegs_contexts]
    exact List.mem_map.mpr ⟨context, member, rfl⟩
  · intro few buffer
    rw [transport, route_of_find (claims_claimRead few member buffer).target]

/-- Interrupt 5 has been claimed once.  Then 5, 6 and 7 are enabled and pending,
5 and 6 with the highest priority. -/
def tied : List Event :=
  [.transport ⟨.write, 0x14, bytesOf 7⟩, .transport ⟨.write, 0x18, bytesOf 7⟩,
    .transport ⟨.write, 0x1C, bytesOf 2⟩, .transport ⟨.write, 0x20, bytesOf 1⟩,
    .transport ⟨.write, 0x2000, bytesOf 0b11100000⟩, .trigger 5,
    .transport (claimRead ⟨0, .machine⟩ [0, 0, 0, 0]), .trigger 7, .trigger 6,
    .trigger 5]

/-- What is tested of the run: 5 is elected by either ranking. -/
def electsFive (plic : Plic) : Bool :=
  [5, 6, 7].all (fun irq => decide (plic.Offered ⟨0, .machine⟩ irq)) &&
    plic.programmed 5 == 7 &&
      (List.range 54).all (fun irq =>
        !decide (plic.Offered ⟨0, .machine⟩ irq) ||
          irq != numIrq && (plic.programmed irq < 7 || 5 ≤ irq) &&
            plic.programmed irq ≤ 7) &&
        plic.nextPendingIrq ⟨0, .machine⟩ true == .ok 5

theorem claimsHighest_tied :
    ∃ trace plic, Run 5 trace plic ∧
      (∀ irq ∈ [5, 6, 7], plic.Offered ⟨0, .machine⟩ irq) ∧
      ClaimsHighest plic ⟨0, .machine⟩ ∧
      trace.countP (claimsIrq 5 5) ≤ trace.countP (triggersIrq 5) ∧
      transport 5 (claimRead ⟨0, .machine⟩ [0, 0, 0, 0]) plic =
        (Register.context ⟨0, .machine⟩).range.process
          (claimRead ⟨0, .machine⟩ [0, 0, 0, 0]) plic := by
  obtain ⟨trace, plic, run, checked⟩ : ∃ trace plic, Run 5 trace plic ∧
      electsFive plic = true :=
    exists_run tied electsFive (by decide +kernel)
  simp only [electsFive, Bool.and_eq_true, Bool.or_eq_true, List.all_eq_true,
    decide_eq_true_eq, beq_iff_eq, bne_iff_ne, Bool.not_eq_true',
    decide_eq_false_iff_not] at checked
  obtain ⟨⟨⟨offered, highest⟩, others⟩, search⟩ := checked
  obtain ⟨claimed, counts, _, _, leads⟩ :=
    claimsHighest_iff run (show ⟨0, .machine⟩ ∈ contexts 5 by decide)
  have ranked : ∀ irq, plic.Offered ⟨0, .machine⟩ irq →
      (irq ≠ numIrq ∧ (plic.programmed irq < 7 ∨ 5 ≤ irq)) ∧
        plic.programmed irq ≤ 7 := by
    intro irq stands
    have listed : irq ∈ List.range 54 :=
      List.mem_range.mpr (Nat.lt_succ_of_le stands.atMost)
    exact (others irq listed).resolve_left (not_not_intro stands)
  have five : plic.Offered ⟨0, .machine⟩ 5 := offered 5 (by decide)
  have elected : Elected (plic.Interrupting ⟨0, .machine⟩) plic.programmed 5 := by
    refine ⟨⟨five, by omega⟩, fun irq stands => ?_, fun irq stands same => ?_⟩
    · rw [highest]
      exact (ranked irq stands.1).2
    · exact (ranked irq stands.1).1.2.resolve_left (by omega)
  have selected := (plic.nextPendingIrq_eq_ok.mp search).2.2
  rw [selectable_ignoring] at selected
  refine ⟨trace, plic, run, offered, claimed.mpr ⟨fun last => ?_, ?_⟩,
    counts 5 (by decide) (by decide), leads (by decide) _⟩
  · exact (ranked numIrq last).1.1 rfl
  · exact ⟨5, .inr elected, selected⟩

/-- Interrupts 1 and 2 are enabled and pending with priorities 1 and 7: the
claim returns interrupt 1. -/
def neighbours : List Event :=
  [.transport ⟨.write, 0x4, bytesOf 1⟩, .transport ⟨.write, 0x8, bytesOf 7⟩,
    .transport ⟨.write, 0x2000, bytesOf 0b110⟩, .trigger 1, .trigger 2]

theorem not_claimsHighest :
    ∃ trace plic, Run 5 trace plic ∧ ¬ ClaimsHighest plic ⟨0, .machine⟩ := by
  obtain ⟨trace, plic, run, checked⟩ : ∃ trace plic, Run 5 trace plic ∧
      (decide (plic.Offered ⟨0, .machine⟩ 2) && plic.programmed 2 == 7 &&
        plic.programmed 1 == 1 &&
        plic.nextPendingIrq ⟨0, .machine⟩ true == .ok 1) = true :=
    exists_run neighbours _ (by decide +kernel)
  simp only [Bool.and_eq_true, decide_eq_true_eq, beq_iff_eq] at checked
  obtain ⟨⟨⟨offered, second⟩, first⟩, search⟩ := checked
  refine ⟨trace, plic, run, fun highest => ?_⟩
  have interrupting : plic.Interrupting ⟨0, .machine⟩ 2 :=
    ⟨offered, by omega⟩
  obtain ⟨last, irq, elected, selected⟩ :=
    followersAgree_of_claimsHighest rfl highest
  rw [← selectable_ignoring] at selected
  have claimed := (plic.nextPendingIrq_eq_ok.mp search).2.2
  obtain rfl := selected.unique claimed
  rcases elected with ⟨impossible, _⟩ | elected
  · omega
  · have above := elected.greatest 2 interrupting
    omega

end Fu540Plic

end RiscvVp
