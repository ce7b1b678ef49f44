import RiscvVp.Rv32.Reservation

/-!
# The bus lock is not held for long

Along a run we count the instructions that a hart has completed since it was
last without the lock and without an open window.  In a run whose
load-reserveds never start an open window anew the count stays below
seventeen, in both builds.
-/

namespace RiscvVp

namespace Rv32

open Csr Interaction

section Actions

variable {G : Type} {surroundings : Surroundings Reply G}
  {busLock : G → BusLock} {hartId : BitVec 32}

/-- Where the body of an instruction stands.  A CSR instruction might rename
the hart, as far as its actions are concerned; it does not need the name. -/
structure ReservationStanding (busLock : G → BusLock) (hartId : BitVec 32)
    (op : Mapping) (reservation : Reservation) (world : G) (hart : Hart) :
    Prop where
  named : isCsr op = false → hart.hartId = hartId
  lrScCounter : hart.lrScCounter = reservation.lrScCounter
  released : reservation.released = true →
    (busLock world).isLocked hartId = false

variable {op : Mapping} {instr : Instruction} {reservation : Reservation}
  {world : G} {hart : Hart}

/-- A completed action, and what is known afterwards. -/
def StandsAfter (busLock : G → BusLock) (hartId : BitVec 32) (op : Mapping)
    (reservation : Reservation) (action : Action) (last : G) :
    Outcome Hart SimulationTrap Fatal action.Answer → Prop
  | .done answer after =>
      reservation.answers action answer ∧
        ReservationStanding busLock hartId op (reservation.after action) last
          after
  | _ => True

/-- The actions that have no more to do with reservations than to leave them
alone. -/
theorem perform_quiet (arbitrates : Arbitrates surroundings busLock hartId)
    (cfg : Config)
    (standing : ReservationStanding busLock hartId op reservation world hart)
    {action : Action} (framed : Machine.Framed windowKept (perform cfg action))
    (free : action.takesLock = false)
    (unnoticed : reservation.after action = reservation)
    (answers : ∀ answer, reservation.answers action answer) :
    (perform cfg action hart).Under surroundings.monitor world
      (StandsAfter busLock hartId op reservation action) := by
  have : Machine.Asking LockFree (perform cfg action) := perform_ordinary cfg free
  refine (quiet_under arbitrates (perform cfg action) world hart).mono
    fun last outcome holds => ?_
  cases outcome with
  | done answer after =>
      have kept := holds.1 after rfl
      refine ⟨answers answer, ?_⟩
      rw [unnoticed]
      exact {
        named := fun other => kept.1.trans (standing.named other)
        lrScCounter := kept.2.trans standing.lrScCounter
        released := fun released => holds.2 (standing.released released) }
  | trap cause after => trivial
  | abort reason => trivial

/-- The two actions that take the lock leave the window alone. -/
theorem perform_locking (cfg : Config)
    (standing : ReservationStanding busLock hartId op reservation world hart)
    {action : Action} (framed : Machine.Framed windowKept (perform cfg action))
    (locks : reservation.after action = { reservation with released := false })
    (answers : ∀ answer, reservation.answers action answer) :
    (perform cfg action hart).Under surroundings.monitor world
      (StandsAfter busLock hartId op reservation action) := by
  refine ((framed.framed hart trivial).under surroundings world).mono
    fun last outcome holds => ?_
  cases outcome with
  | done answer after =>
      have kept := holds.1 after rfl
      refine ⟨answers answer, ?_⟩
      rw [locks]
      exact {
        named := fun other => kept.1.trans (standing.named other)
        lrScCounter := kept.2.trans standing.lrScCounter
        released := nofun }
  | trap cause after => trivial
  | abort reason => trivial

/-- The two stores that give the lock up. -/
theorem perform_releasing (cfg : Config)
    (standing : ReservationStanding busLock hartId op reservation world hart)
    {action : Action} (framed : Machine.Framed windowKept (perform cfg action))
    (releases : Releases surroundings busLock hartId (perform cfg action))
    (named : isCsr op = false)
    (unlocks : reservation.after action = { reservation with released := true })
    (answers : ∀ answer, reservation.answers action answer) :
    (perform cfg action hart).Under surroundings.monitor world
      (StandsAfter busLock hartId op reservation action) := by
  have kept := (framed.framed hart trivial).under surroundings world
  have freed := releases world hart (standing.named named)
  refine (kept.and freed).mono fun last outcome holds => ?_
  cases outcome with
  | done answer after =>
      have kept := holds.1.1 after rfl
      refine ⟨answers answer, ?_⟩
      rw [unlocks]
      exact {
        named := fun other => kept.1.trans (standing.named other)
        lrScCounter := kept.2.trans standing.lrScCounter
        released := fun _ => holds.2 answer after rfl }
  | trap cause after => trivial
  | abort reason => trivial

/-- `release_lr_sc_reservation` closes the window and gives up the lock. -/
theorem releaseLrScReservation_under
    (arbitrates : Arbitrates surroundings busLock hartId)
    (named : hart.hartId = hartId) :
    (releaseLrScReservation hart).Under surroundings.monitor world
      fun last outcome =>
        outcome = .done () { hart with lrScCounter := 0 } ∧
          (busLock last).isLocked hartId = false := by
  unfold releaseLrScReservation Memory.atomicUnlock
  rw [Machine.under_bind, Machine.modifies_apply, Program.under_ret]
  dsimp only
  rw [Machine.under_bind, Machine.reads_apply, Program.under_ret]
  dsimp only
  have same : Hart.hartId { hart with lrScCounter := 0 } = hartId := named
  rw [same, call, Machine.request_apply, Program.under_call]
  refine ⟨trivial, fun reply allowed => ⟨rfl, ?_⟩⟩
  change (busLock (surroundings.next world _ reply)).isLocked hartId = false
  rw [arbitrates.unlock allowed]
  exact BusLock.isLocked_unlock_self _ _

/-- One action of a body. -/
theorem perform_reserving (arbitrates : Arbitrates surroundings busLock hartId)
    (cfg : Config)
    (standing : ReservationStanding busLock hartId op reservation world hart)
    {action : Action} (permitted : mayPerform op instr action) :
    (perform cfg action hart).Under surroundings.monitor world
      (StandsAfter busLock hartId op reservation action) := by
  have assigns {update : Hart → Hart}
      (hartIds : ∀ hart, (update hart).hartId = hart.hartId)
      (counters : ∀ hart, (update hart).lrScCounter = hart.lrScCounter) :
      Machine.Framed windowKept (Machine.modifies update : HartM Unit) :=
    Machine.Framed.modifies fun hart _ => ⟨hartIds hart, counters hart⟩
  cases action with
  | setReg | setFpReg | setPc | hitBreakpoint | raiseFlags
  | setRoundingMode | fpSetDirty =>
      exact perform_quiet arbitrates cfg standing
        (assigns (fun _ => rfl) fun _ => rfl) rfl rfl fun _ => trivial
  | fpUpdateExceptionFlags =>
      refine perform_quiet arbitrates cfg standing
        (assigns (fun hart => ?_) fun hart => ?_) rfl rfl fun _ => trivial
      · unfold Hart.fpUpdateExceptionFlags
        split <;> rfl
      · unfold Hart.fpUpdateExceptionFlags
        split <;> rfl
  | returnFromTrapHandler mode =>
      refine perform_quiet arbitrates cfg standing ?_ rfl rfl fun _ => trivial
      unfold perform returnFromTrapHandler
      have machine := assigns (fun hart => (rfl :
        (machineReturn hart).hartId = hart.hartId)) fun _ => rfl
      have supervisor := assigns (fun hart => (rfl :
        (supervisorReturn hart).hartId = hart.hartId)) fun _ => rfl
      have user := assigns (fun hart => (rfl :
        (userReturn hart).hartId = hart.hartId)) fun _ => rfl
      have unknown : Machine.Framed windowKept
          (Machine.abort .unknownPrivilegeLevel : HartM Unit) :=
        Machine.Framed.abort trivial
      infer_instance
  | executeSyscall =>
      exact perform_quiet arbitrates cfg standing
        (executeSyscall_framed (fun _ _ _ => ⟨rfl, rfl⟩)
          fun _ _ => ⟨rfl, rfl⟩) rfl rfl fun _ => trivial
  | setLrScCounter value =>
      exact ⟨trivial, standing.named, rfl, standing.released⟩
  | releaseLrScReservation =>
      obtain rfl : op = .wfi := permitted
      refine (releaseLrScReservation_under arbitrates
        (standing.named rfl)).mono fun last outcome holds => ?_
      obtain ⟨rfl, free⟩ := holds
      exact ⟨trivial, fun _ => standing.named rfl, rfl, fun _ => free⟩
  | setCsrValue addr value =>
      have csr : isCsr op = true := permitted.1
      rcases setCsrValue_outcome addr value hart with
        ⟨after, equation, writes⟩ | ⟨trap, equation, _⟩
      · rw [perform, equation, Program.under_ret]
        refine ⟨trivial, fun other => ?_, ?_, standing.released⟩
        · rw [csr] at other
          cases other
        · cases writes <;> exact standing.lrScCounter
      · rw [perform, equation, Program.under_ret]
        trivial
  | fatal reason => trivial
  | lrScCounter =>
      exact ⟨standing.lrScCounter, standing⟩
  | amoLoadWord | atomicLoadReservedWord =>
      exact perform_locking cfg standing (perform_service cfg rfl) rfl
        fun _ => trivial
  | atomicStoreWord addr value =>
      have member : isAmo op = true := permitted
      refine perform_releasing cfg standing (perform_service cfg rfl)
        (Releases.atomicStoreWord arbitrates cfg addr value) ?_ rfl
        fun _ => trivial
      cases op <;> first | rfl | cases member
  | atomicStoreConditionalWord addr value =>
      obtain rfl : op = .scW := permitted
      exact perform_releasing cfg standing (perform_service cfg rfl)
        (Releases.atomicStoreConditionalWord arbitrates cfg addr value) rfl
        rfl fun _ => trivial
  | _ =>
      exact perform_quiet arbitrates cfg standing (perform_service cfg rfl)
        rfl rfl fun _ => trivial

end Actions

/-! ## The parts of a step -/

section Parts

variable {G : Type} {surroundings : Surroundings Reply G}
  {busLock : G → BusLock} {hartId : BitVec 32}

/-- The hart of this number with this window, which does not hold the lock
when the window is closed. -/
structure Poised (busLock : G → BusLock) (hartId : BitVec 32) (counter : Int)
    (world : G) (hart : Hart) : Prop where
  named : hart.hartId = hartId
  lrScCounter : hart.lrScCounter = counter
  closed : counter = 0 → (busLock world).isLocked hartId = false

/-- The window may have been closed. -/
def Tame (busLock : G → BusLock) (hartId : BitVec 32) (counter : Int)
    (world : G) (hart : Hart) : Prop :=
  Poised busLock hartId 0 world hart ∨ Poised busLock hartId counter world hart

/-- One instruction fewer. -/
def ticked (counter : Int) : Int := if counter = 0 then 0 else counter - 1

theorem named_enduring (hartId : BitVec 32) :
    Enduring fun hart => hart.hartId = hartId where
  starting named := named
  steady named steady := (steady.csr .mhartid rfl).trans named
  executed named executed := executed.hartId.trans named
  returns named := ⟨named, named, named⟩
  recorded mode word named := by
    unfold handlerOf
    split
    · exact ⟨named, named⟩
    split
    · exact ⟨named, named⟩
    · exact ⟨named, named⟩
  enters named enters := by
    rcases enter_cases enters with ⟨_, rfl⟩ | ⟨_, rfl⟩ | ⟨_, rfl⟩
    · exact named
    · exact named
    · exact named

namespace Poised

variable {α : Type} {counter : Int}

theorem modifies {update : Hart → Hart}
    (kept : ∀ hart, windowKept.related hart (update hart)) :
    Machine.Achieves surroundings (Poised busLock hartId counter)
      (Machine.modifies update : HartM Unit)
      fun _ => Poised busLock hartId counter :=
  Machine.Achieves.modifies fun _ hart poised => {
    named := (kept hart).1.trans poised.named
    lrScCounter := (kept hart).2.trans poised.lrScCounter
    closed := poised.closed }

variable (arbitrates : Arbitrates surroundings busLock hartId)

include arbitrates

theorem quiet (machine : HartM α) [Machine.Framed windowKept machine]
    [Machine.Asking LockFree machine] :
    Machine.Achieves surroundings (Poised busLock hartId counter) machine
      fun _ => Poised busLock hartId counter :=
  quiet_achieves arbitrates machine fun poised kept released => {
    named := kept.1.trans poised.named
    lrScCounter := kept.2.trans poised.lrScCounter
    closed := fun zero => released (poised.closed zero) }

theorem releaseLrScReservation :
    Machine.Achieves surroundings (fun _ hart => hart.hartId = hartId)
      releaseLrScReservation fun _ => Poised busLock hartId 0 := by
  intro world hart named
  refine (releaseLrScReservation_under arbitrates named).mono
    fun last outcome released value after same => ?_
  obtain ⟨rfl, free⟩ := released
  cases same
  exact ⟨named, rfl, fun _ => free⟩

/-- At the end of its window the hart gives up the lock. -/
theorem tickLrScCounter :
    Machine.Achieves surroundings (Poised busLock hartId counter)
      tickLrScCounter fun _ => Poised busLock hartId (ticked counter) := by
  intro world hart poised
  unfold Rv32.tickLrScCounter
  rw [Machine.under_bind, Machine.reads_apply, Program.under_ret]
  dsimp only
  rw [poised.lrScCounter, ticked, Machine.ite_apply]
  by_cases zero : counter = 0
  · rw [if_neg (not_not.2 zero), if_pos zero]
    intro value after same
    cases same
    exact zero ▸ poised
  rw [if_pos zero, if_neg zero]
  have counted : Machine.Achieves surroundings
      (Poised busLock hartId counter)
      (Machine.modifies fun hart =>
        { hart with lrScCounter := hart.lrScCounter - 1 } : HartM Unit)
      fun _ _ hart => hart.hartId = hartId ∧ hart.lrScCounter = counter - 1 :=
    Machine.Achieves.modifies fun _ hart poised =>
      ⟨poised.named, congrArg (· - 1) poised.lrScCounter⟩
  refine counted.bind (fun _ => ?_) world hart poised
  have checked (condition : Bool) : Machine.Achieves surroundings
      (fun _ hart => hart.hartId = hartId ∧ hart.lrScCounter = counter - 1)
      (Machine.assert condition .lrScCounterNegative : HartM Unit)
      fun _ _ hart => hart.hartId = hartId ∧ hart.lrScCounter = counter - 1 :=
    Machine.Achieves.assert fun _ _ _ kept => kept
  refine (checked _).bind fun _ => ?_
  refine Machine.Achieves.ite (fun closes => ?_) fun stays => ?_
  · rw [closes]
    exact (releaseLrScReservation arbitrates).mono
      (fun _ _ kept => kept.1) fun _ _ _ released => released
  · exact Machine.Achieves.pure fun _ _ kept =>
      ⟨kept.1, kept.2, fun contrary => absurd contrary stays⟩

/-- The end of a step. -/
theorem finishStep (cfg : Config) :
    Machine.Achieves surroundings (Poised busLock hartId counter)
      (finishStep cfg) fun _ => Poised busLock hartId (ticked counter) := by
  unfold Rv32.finishStep performanceAndSyncUpdate
  refine Machine.Achieves.bind (modifies fun _ => ⟨rfl, rfl⟩) fun _ => ?_
  refine Machine.Achieves.bind (modifies fun hart => ?_) fun _ => ?_
  · split <;> exact ⟨rfl, rfl⟩
  refine (quiet arbitrates (Machine.reads Hart.op)).bind fun op => ?_
  refine Machine.Achieves.bind (modifies fun hart => ?_) fun _ => ?_
  · unfold countInstruction
    split <;> exact ⟨rfl, rfl⟩
  refine (tickLrScCounter arbitrates).bind fun _ => ?_
  refine Machine.Achieves.bind (modifies fun hart => ?_) fun _ => ?_
  · unfold countCycles
    split <;> exact ⟨rfl, rfl⟩
  have advances : Machine.Framed windowKept
      (advanceTime cfg (instrCycles op)) := by
    have moved : Machine.Framed windowKept
        (Machine.modifies fun hart =>
          { hart with pipeline := hart.pipeline.advance 1 } : HartM Unit) :=
      Machine.Framed.modifies fun _ _ => ⟨rfl, rfl⟩
    have noted : Machine.Framed windowKept
        (Machine.modifies fun hart =>
          { hart with lastCycles := hart.pipeline.numTotalCycles } :
          HartM Unit) :=
      Machine.Framed.modifies fun _ _ => ⟨rfl, rfl⟩
    unfold advanceTime
    infer_instance
  have asks : Machine.Asking LockFree
      (advanceTime cfg (instrCycles op)) := by
    unfold advanceTime
    infer_instance
  refine (quiet arbitrates (advanceTime cfg (instrCycles op))).bind
    fun advance => ?_
  have synchronises : Machine.Framed windowKept (synchronise advance) := by
    unfold synchronise
    infer_instance
  have waits : Machine.Asking LockFree (synchronise advance) := by
    have asked : Machine.Asking LockFree
        (call (.needSync advance) : HartM Bool) :=
      Machine.Asking.request trivial _
    have synced : Machine.Asking LockFree
        (call .sync : HartM (List InterruptEvent)) :=
      Machine.Asking.request trivial _
    exact Machine.Asking.bind _ _
  exact quiet arbitrates (synchronise advance)

/-- An entry to a handler gives up the lock. -/
theorem switchToTrapHandler (targetMode : PrivilegeLevel) :
    Machine.Achieves surroundings (fun _ hart => hart.hartId = hartId)
      (switchToTrapHandler targetMode)
      fun _ => Poised busLock hartId 0 := by
  intro world hart named
  rw [switchToTrapHandler_apply, named, Program.under_call]
  refine ⟨trivial, fun reply allowed value after same => ?_⟩
  cases enters : enter targetMode hart with
  | none =>
      rw [enters] at same
      cases same
  | some entered =>
      rw [enters] at same
      cases same
      refine ⟨(named_enduring hartId).enters named enters, ?_, fun _ => ?_⟩
      · rcases enter_cases enters with ⟨_, rfl⟩ | ⟨_, rfl⟩ | ⟨_, rfl⟩ <;> rfl
      · change (busLock (surroundings.next world _ reply)).isLocked hartId =
          false
        rw [arbitrates.unlock allowed]
        exact BusLock.isLocked_unlock_self _ _

end Poised

namespace Tame

variable {counter : Int}

theorem named {world : G} {hart : Hart}
    (tame : Tame busLock hartId counter world hart) : hart.hartId = hartId :=
  tame.elim Poised.named Poised.named

variable (arbitrates : Arbitrates surroundings busLock hartId)

include arbitrates

/-- An interrupt gives up the lock; no interrupt, nothing. -/
theorem takeInterrupt :
    Machine.Achieves surroundings (Tame busLock hartId counter) takeInterrupt
      fun event world hart => event ≠ .hitBreakpoint ∧
        Tame busLock hartId counter world hart := by
  intro world hart tame
  unfold Rv32.takeInterrupt
  rw [Machine.under_bind, Machine.reads_apply, Program.under_ret]
  dsimp only
  rw [Machine.ite_apply]
  split
  next due =>
    have valid := (targetMode_cases hart).resolve_right due
    rw [Machine.under_bind, prepareInterrupt_apply _ hart valid,
      Program.under_ret]
    cases highestPriority (computePendingInterrupts hart).pending with
    | none => exact fun _ _ contrary => nomatch contrary
    | some exc =>
        dsimp only
        refine Machine.Achieves.bind
          (Poised.switchToTrapHandler arbitrates _)
          (fun _ => Machine.Achieves.pure fun _ _ poised =>
            ⟨nofun, .inl poised⟩) world _ ?_
        exact ((named_enduring hartId).recorded _ _ tame.named).1
  next idle =>
    intro event after same
    cases same
    exact ⟨nofun, tame⟩

/-- So does a trap. -/
theorem takeTrap (trap : SimulationTrap) :
    Machine.Achieves surroundings (fun _ hart => hart.hartId = hartId)
      (takeTrap trap) fun event world hart => event ≠ .hitBreakpoint ∧
        Tame busLock hartId counter world hart := by
  have observed : Machine.Achieves surroundings
      (fun _ hart => hart.hartId = hartId) (observe .trapCaught)
      fun _ _ hart => hart.hartId = hartId :=
    Machine.Achieves.request fun _ _ _ named _ => named
  have prepared : Machine.Achieves surroundings
      (fun _ hart => hart.hartId = hartId) (prepareTrap trap)
      fun _ _ hart => hart.hartId = hartId := by
    intro world hart named
    rw [prepareTrap_apply, Program.under_ret]
    split
    · exact fun _ _ contrary => nomatch contrary
    split
    · intro target after same
      cases same
      have rewound : hart.rewound.hartId = hartId := named
      have enduring := named_enduring hartId
      exact (enduring.recorded _ _ (enduring.recorded _ _ rewound).1).2
    · exact fun _ _ contrary => nomatch contrary
  unfold Rv32.takeTrap
  refine observed.bind fun _ => prepared.bind fun target => ?_
  refine (Poised.switchToTrapHandler arbitrates target).bind fun _ => ?_
  exact Machine.Achieves.pure fun _ _ poised => ⟨nofun, .inl poised⟩

/-- The instruction in hand, unless it opens an open window again. -/
theorem executeDecoded (cfg : Config) {world : G} {decoded : Hart}
    (poised : Poised busLock hartId counter world decoded)
    (keeps : cfg.pipelineTiming = true → decoded.op = .lrW →
      decoded.lrScCounter = 0) :
    (executeDecoded cfg decoded).Under surroundings.monitor world
      fun last outcome => ∀ value after, outcome = .done value after →
        Tame busLock hartId (window counter) last after := by
  unfold Rv32.executeDecoded
  rw [Machine.under_bind, Machine.reads_apply, Program.under_ret]
  dsimp only [id]
  cases accepted : hasCase decoded.op with
  | false =>
      rw [execute_of_not_hasCase cfg _ _ accepted, Program.under_ret]
      exact fun _ _ contrary => nomatch contrary
  | true =>
      have named := ((named_enduring hartId).execute cfg decoded.op
        decoded.instr poised.named).under surroundings world
      -- closed windows start out released
      have start : ReservationStanding busLock hartId decoded.op
          ⟨counter, decide (counter = 0)⟩ world decoded := {
        named := fun _ => poised.named
        lrScCounter := poised.lrScCounter
        released := fun zero => poised.closed (of_decide_eq_true zero) }
      have bounded := execute_reserving cfg decoded.instr accepted
        ⟨counter, decide (counter = 0)⟩ fun loads timing =>
          poised.lrScCounter ▸ keeps timing loads
      have follows : (Machine.answering (perform cfg)
          (execute cfg decoded.instr decoded.op) decoded).Under
            surroundings.monitor world fun last outcome =>
              ∀ value after, outcome = .done value after →
                after.hartId = hartId →
                  Tame busLock hartId (window counter) last after := by
        refine Machine.answering_under (perform cfg)
          (fun reservation hart world => ReservationStanding busLock hartId
            decoded.op reservation world hart) ?_ bounded start ?_
        · intro reservation hart world action standing permitted
          refine (perform_reserving arbitrates cfg standing permitted).mono
            fun last outcome stands => ?_
          cases outcome with
          | done answer after => exact stands
          | trap cause after => exact fun _ _ contrary => nomatch contrary
          | abort reason => exact fun _ _ contrary => nomatch contrary
        · intro reservation hart world value ends standing value' after same
            name
          cases same
          have released (zero : reservation.lrScCounter = 0) :=
            standing.released (ends.released (by simp) zero)
          rcases ends.lrScCounter with closed | kept
          · exact .inl ⟨name, standing.lrScCounter.trans closed,
              fun _ => released closed⟩
          · exact .inr ⟨name, standing.lrScCounter.trans kept,
              fun zero => released (kept.trans zero)⟩
      refine (named.and follows).mono fun last outcome both value after same =>
        ?_
      exact both.2 value after same (both.1 after (by rw [same]; rfl))

end Tame

end Parts

/-! ## The whole step -/

/-- A load-reserved of the timing build finds its window closed. -/
def KeepsWindow (cfg : Config) (decoded : Hart) : Prop :=
  cfg.pipelineTiming = true → decoded.op = .lrW → decoded.lrScCounter = 0

instance (cfg : Config) (decoded : Hart) :
    Decidable (KeepsWindow cfg decoded) :=
  inferInstanceAs (Decidable (_ → _ → _))

section Whole

variable {G : Type} {surroundings : Surroundings Reply G}
  {busLock : G → BusLock} {hartId : BitVec 32} {counter : Int}
  (arbitrates : Arbitrates surroundings busLock hartId) (cfg : Config)

include arbitrates

theorem execStep_tame {world : G} {hart : Hart}
    (poised : Poised busLock hartId counter world hart)
    (keeps : ∀ later decoded,
      (issue cfg hart).ReachesIn surroundings world later
        (.done () decoded) → KeepsWindow cfg decoded) :
    (execStep cfg hart).Under surroundings.monitor world
      fun last outcome => ∀ value after, outcome = .done value after →
        Tame busLock hartId (window counter) last after := by
  have framed : Machine.Framed windowKept (issue cfg) :=
    issue_framed cfg (fun _ _ _ _ _ => ⟨rfl, rfl⟩) trivial
  have issued := (Program.under_iff_reachesIn _ _ _).1
    (Poised.quiet arbitrates (issue cfg) world hart poised)
  unfold execStep
  rw [Machine.under_bind, Program.under_iff_reachesIn]
  intro last outcome reached
  cases outcome with
  | done value decoded =>
      exact Tame.executeDecoded arbitrates cfg
        (issued last _ reached value decoded rfl) (keeps last decoded reached)
  | trap cause after => exact fun _ _ contrary => nomatch contrary
  | abort reason => exact fun _ _ contrary => nomatch contrary

theorem takeStep_tame {world : G} {hart : Hart}
    (poised : Poised busLock hartId counter world hart)
    (keeps : ∀ later decoded,
      (issue cfg hart).ReachesIn surroundings world later
        (.done () decoded) → KeepsWindow cfg decoded) :
    (takeStep cfg hart).Under surroundings.monitor world
      fun last outcome => ∀ event after, outcome = .done event after →
        event ≠ .hitBreakpoint ∧
          Tame busLock hartId (window counter) last after := by
  have executes : Machine.Achieves surroundings
      (fun place state => place = world ∧ state = hart)
      (execStep cfg) fun _ => Tame busLock hartId (window counter) := by
    rintro _ _ ⟨rfl, rfl⟩
    exact execStep_tame arbitrates cfg poised keeps
  refine Machine.Achieves.catchTrap
    (executes.bind fun _ => Tame.takeInterrupt arbitrates) ?_
    (Tame.takeTrap arbitrates) world hart ⟨rfl, rfl⟩
  rintro _ _ ⟨rfl, rfl⟩
  refine Program.All.under surroundings ?_ _
  rw [Machine.all_bind]
  refine ((named_enduring hartId).execStep cfg poised.named).mono
    fun outcome kept => ?_
  cases outcome with
  | done value middle =>
      refine (takeInterrupt_all middle).mono fun choice chosen => ?_
      cases chosen <;> exact fun _ _ contrary => nomatch contrary
  | trap trap middle =>
      intro _ _ same
      cases same
      exact kept middle rfl
  | abort reason => exact fun _ _ contrary => nomatch contrary

/-- A step stops at a breakpoint, or it brings an open window one instruction
nearer to its end, or gives up the reservation. -/
theorem runStep_tame {world : G} {hart : Hart}
    (poised : Poised busLock hartId counter world hart)
    (keeps : ∀ decoded, Issues cfg surroundings world hart decoded →
      KeepsWindow cfg decoded) :
    (runStep cfg hart).Under surroundings.monitor world
      fun last outcome => ∀ event after, outcome = .done event after →
        (event = .hitBreakpoint ∧ Poised busLock hartId counter last after) ∨
          (event ≠ .hitBreakpoint ∧
            Tame busLock hartId (ticked (window counter)) last after) := by
  unfold runStep
  rw [Machine.under_bind, Machine.reads_apply, Program.under_ret]
  dsimp only [id]
  cases zero : hart.regs 0 == 0 with
  | false =>
      rw [Machine.assert_false, Machine.under_bind, Machine.abort_apply,
        Program.under_ret]
      exact fun _ _ contrary => nomatch contrary
  | true =>
      rw [Machine.assert_true, Machine.under_bind, Machine.pure_apply,
        Program.under_ret]
      dsimp only
      rw [Machine.ite_apply]
      split
      next breakpoint =>
        intro event after same
        cases same
        exact .inl ⟨rfl, poised.named, poised.lrScCounter, poised.closed⟩
      next continues =>
        have begins : hart.begins :=
          ⟨by simpa using zero, by simpa using continues⟩
        rw [Machine.under_bind, Machine.modifies_apply, Program.under_ret]
        dsimp only
        rw [Machine.under_bind]
        have starts : Poised busLock hartId counter world hart.starting :=
          ⟨poised.named, poised.lrScCounter, poised.closed⟩
        refine (takeStep_tame arbitrates cfg starts
          fun later decoded reached =>
            keeps decoded ⟨begins, later, reached⟩).mono
          fun later outcome holds => ?_
        cases outcome with
        | done event middle =>
            obtain ⟨proceeds, tame⟩ := holds event middle rfl
            have finished : Machine.Achieves surroundings
                (Tame busLock hartId (window counter)) (finishStep cfg)
                fun _ => Tame busLock hartId (ticked (window counter)) := by
              rintro place state (closed | open_)
              · exact ((Poised.finishStep arbitrates cfg).mono
                  (fun _ _ poised => poised)
                  fun _ _ _ poised => .inl poised) place state closed
              · exact ((Poised.finishStep arbitrates cfg).mono
                  (fun _ _ poised => poised)
                  fun _ _ _ poised => .inr poised) place state open_
            refine finished.bind (fun _ => ?_) later middle tame
            exact Machine.Achieves.pure fun _ _ tame =>
              .inr ⟨proceeds, tame⟩
        | trap trap middle => exact fun _ _ contrary => nomatch contrary
        | abort reason => exact fun _ _ contrary => nomatch contrary

end Whole

/-! ## Runs -/

/-- The hart holds the lock or does not give way. -/
def occupies (busLock : BusLock) (hart : Hart) : Bool :=
  busLock.isLocked hart.hartId || hart.lrScCounter != 0

/-- The instructions that a step completes; a breakpoint stops it before. -/
def StepEvent.completed : StepEvent → Nat
  | .hitBreakpoint => 0
  | _ => 1

section Run

variable {G : Type} (cfg : Config) (surroundings : Surroundings Reply G)
  (busLock : G → BusLock) (hartId : BitVec 32) (admits : Hart → Prop)

/-- A run of the hart of this number whose instructions are admitted, with the
number of instructions that it has completed since it was last without the
lock and without an open window. -/
inductive OccupyingRun : Nat → G → Hart → Prop
  | boot (world : G) {hart : Hart} (boots : Boots hart)
      (named : hart.hartId = hartId)
      (released : (busLock world).isLocked hartId = false) :
      OccupyingRun 0 world hart
  | interrupted {completed : Nat} {world : G} {hart : Hart}
      (event : InterruptEvent) (run : OccupyingRun completed world hart) :
      OccupyingRun completed world (hart.interrupt event)
  | step {completed : Nat} {world later : G} {hart after : Hart}
      {event : StepEvent} (run : OccupyingRun completed world hart)
      (admitted : ∀ decoded,
        Issues cfg surroundings world hart decoded → admits decoded)
      (steps : (runStep cfg hart).ReachesIn surroundings world later
        (.done event after)) :
      OccupyingRun
        (if occupies (busLock later) after then completed + event.completed
          else 0)
        later after

variable {cfg surroundings busLock hartId} {completed : Nat} {world : G}
  {hart : Hart}

/-- What the rest of the window allows. -/
structure Remaining (busLock : G → BusLock) (hartId : BitVec 32)
    (completed : Nat) (world : G) (hart : Hart) (counter : Int) : Prop where
  poised : Poised busLock hartId counter world hart
  lower : 0 ≤ counter
  upper : completed + counter ≤ Exec.lrScWindow
  idle : counter = 0 → completed = 0

/-- A hart with a closed window has nothing left to complete. -/
theorem Remaining.closed (poised : Poised busLock hartId 0 world hart) :
    Remaining busLock hartId
      (if occupies (busLock world) hart then completed else 0) world hart
        0 := by
  have free : occupies (busLock world) hart = false := by
    simp [occupies, poised.named, poised.lrScCounter, poised.closed rfl]
  rw [free, if_neg Bool.false_ne_true]
  exact ⟨poised, Int.le_refl 0, by decide, fun _ => rfl⟩

/-- A hart with an open window occupies. -/
theorem Remaining.opened {counter : Int}
    (poised : Poised busLock hartId counter world hart)
    (positive : 0 < counter)
    (upper : completed + counter ≤ Exec.lrScWindow) :
    Remaining busLock hartId
      (if occupies (busLock world) hart then completed else 0) world hart
        counter := by
  have nonzero : hart.lrScCounter ≠ 0 := by
    rw [poised.lrScCounter]
    omega
  have occupied : occupies (busLock world) hart = true := by
    simp [occupies, nonzero]
  rw [occupied]
  exact ⟨poised, by omega, upper, by omega⟩

/-- One completed instruction leaves that much less. -/
theorem Remaining.next {counter : Int} {event : StepEvent}
    (proceeds : event ≠ .hitBreakpoint)
    (poised : Poised busLock hartId (ticked (window counter)) world hart)
    (lower : 0 ≤ counter) (upper : completed + counter ≤ Exec.lrScWindow)
    (idle : counter = 0 → completed = 0) :
    Remaining busLock hartId
      (if occupies (busLock world) hart then completed + event.completed
        else 0) world hart (ticked (window counter)) := by
  have counted : event.completed = 1 := by
    cases event with
    | hitBreakpoint => exact absurd rfl proceeds
    | _ => rfl
  have length : Exec.lrScWindow = 17 := rfl
  rw [counted]
  by_cases zero : counter = 0
  · have sixteen : ticked (window counter) = 16 := by rw [zero]; rfl
    rw [sixteen] at poised ⊢
    exact .opened poised (by decide) (by rw [idle zero]; decide)
  · have fewer : ticked (window counter) = counter - 1 := by
      rw [window, if_neg zero, ticked, if_neg zero]
    rw [fewer] at poised ⊢
    by_cases last : counter - 1 = 0
    · rw [last] at poised ⊢
      exact .closed poised
    · exact .opened poised (by omega) (by push_cast; omega)

/-- In every run whose load-reserveds of the timing build find their windows
closed, the hart has completed fewer than seventeen instructions since it was
last without the lock and without an open window. -/
theorem completed_lt_of_occupyingRun
    (arbitrates : Arbitrates surroundings busLock hartId)
    (run : OccupyingRun cfg surroundings busLock hartId (KeepsWindow cfg)
      completed world hart) : completed < 17 := by
  have remaining :
      ∃ counter, Remaining busLock hartId completed world hart counter := by
    induction run with
    | boot world boots named released =>
        cases boots
        exact ⟨0, ⟨named, rfl, fun _ => released⟩, Int.le_refl 0, by decide,
          fun _ => rfl⟩
    | interrupted event run inductionHypothesis =>
        obtain ⟨counter, poised, lower, upper, idle⟩ := inductionHypothesis
        refine ⟨counter, ?_, lower, upper, idle⟩
        rw [Hart.interrupt_eq]
        exact ⟨poised.named, poised.lrScCounter, poised.closed⟩
    | step run admitted steps inductionHypothesis =>
        obtain ⟨counter, poised, lower, upper, idle⟩ := inductionHypothesis
        rcases (Program.under_iff_reachesIn _ _ _).1
          (runStep_tame arbitrates cfg poised admitted) _ _ steps _ _ rfl with
          ⟨rfl, stopped⟩ | ⟨proceeds, closed | next⟩
        · by_cases zero : counter = 0
          · subst zero
            exact ⟨0, .closed stopped⟩
          · exact ⟨counter, .opened stopped (by omega) upper⟩
        · exact ⟨0, .closed closed⟩
        · exact ⟨_, .next proceeds next lower upper idle⟩
  obtain ⟨counter, poised, lower, upper, idle⟩ := remaining
  have window : Exec.lrScWindow = 17 := rfl
  by_cases zero : counter = 0
  · rw [idle zero]
    decide
  · omega

end Run

/-! ## On the platform of memories -/

namespace Platform

theorem arbitrates (hartId : BitVec 32) :
    Arbitrates surroundings Platform.busLock hartId where
  lock _ := rfl
  unlock _ := rfl
  isLocked answered := answered
  others {platform request _} lockFree other _ := by
    cases request with
    | lock owner => exact lockFree.elim
    | unlock owner =>
        have different : owner ≠ hartId := fun same => other (same ▸ rfl)
        exact .single (.unlock _ different)
    | write kind bytes addr data =>
        have same : (handle (.write kind bytes addr data) platform).2.busLock =
            platform.busLock := by
          simp only [handle]
          cases platform.transport bytes addr () <;> rfl
        change BusLock.Moves hartId platform.busLock
          (handle (.write kind bytes addr data) platform).2.busLock
        rw [same]
    | _ => exact .refl

/-- The state after some steps whose instructions are admitted, with the
completed instructions counted. -/
def occupation (admits : Hart → Bool) (cfg : Config) :
    Nat → Nat → Hart → Platform → Option (Nat × Hart × Platform)
  | 0, completed, hart, platform => some (completed, hart, platform)
  | count + 1, completed, hart, platform =>
      match (runStep cfg hart).run handle platform with
      | (.done event after, later) =>
          if issuesAdmitted admits cfg hart platform then
            occupation admits cfg count
              (if occupies later.busLock after then
                completed + event.completed
              else 0)
              after later
          else none
      | _ => none

theorem occupyingRun_of_occupation {admits : Hart → Bool} {cfg : Config}
    {hartId : BitVec 32} {count completed total : Nat} {hart last : Hart}
    {platform later : Platform}
    (taken : occupation admits cfg count completed hart platform =
      some (total, last, later))
    (run : OccupyingRun cfg surroundings Platform.busLock hartId
      (fun decoded => admits decoded = true) completed platform hart) :
    OccupyingRun cfg surroundings Platform.busLock hartId
      (fun decoded => admits decoded = true) total later last := by
  induction count generalizing completed hart platform with
  | zero =>
      cases taken
      exact run
  | succ count inductionHypothesis =>
      unfold occupation at taken
      split at taken
      next event after between ran =>
        split at taken
        next checked =>
          apply inductionHypothesis taken
          refine .step run ?_ ((Program.reachesIn_of _ _ _ _ _).2 ran)
          rintro decoded ⟨_, _, reached⟩
          rw [surroundings, Program.reachesIn_of] at reached
          simpa [issuesAdmitted, reached] using checked
        next => cases taken
      next => cases taken

/-- The plain platform of the timing build. -/
def timingConfig : Config := { config with pipelineTiming := true }

/-- The instructions completed in some steps of a program. -/
def completedAfter (admits : Hart → Bool) (words : List (BitVec 32))
    (count : Nat) : Option Nat :=
  (occupation admits timingConfig count 0 (.reset 0 false 0 0x1000)
    (ofWords words)).map Prod.fst

theorem exists_occupyingRun {admits : Hart → Bool}
    {words : List (BitVec 32)} {count completed : Nat}
    (taken : completedAfter admits words count = some completed) :
    ∃ platform hart, OccupyingRun timingConfig surroundings Platform.busLock 0
      (fun decoded => admits decoded = true) completed platform hart := by
  obtain ⟨⟨total, hart, platform⟩, reached, rfl⟩ :=
    Option.map_eq_some_iff.1 taken
  refine ⟨platform, hart, occupyingRun_of_occupation reached ?_⟩
  exact .boot _ (.reset 0 false 0 0x1000 false false fun _ => false) rfl rfl

end Platform

/-- `lr.w x5, (x6)` and a jump to itself: the bound is met in the timing
build, where it is as tight as it can be. -/
theorem completed_lt_spinAfterLoadReserved :
    (∃ platform hart, OccupyingRun Platform.timingConfig Platform.surroundings
      Platform.busLock 0 (KeepsWindow Platform.timingConfig) 16 platform
        hart) ∧ 16 < 17 := by
  have taken : Platform.completedAfter
      (fun decoded => decide (KeepsWindow Platform.timingConfig decoded))
      [0x100322AF, 0x0000006F] 16 = some 16 := by
    decide +kernel
  obtain ⟨platform, hart, run⟩ := Platform.exists_occupyingRun taken
  simp only [decide_eq_true_eq] at run
  exact ⟨⟨platform, hart, run⟩,
    completed_lt_of_occupyingRun (Platform.arbitrates 0) run⟩

/-- `lr.w x5, (x6)` and a jump back to it: forty instructions later the timing
build has not given up the lock. -/
theorem not_completed_lt_loadReservedLoop :
    Arbitrates Platform.surroundings Platform.busLock 0 ∧
      ¬ ∀ completed platform hart,
        OccupyingRun Platform.timingConfig Platform.surroundings
          Platform.busLock 0 (fun _ => True) completed platform hart →
            completed < 17 := by
  have taken : Platform.completedAfter (fun _ => true)
      [0x100322AF, 0xFFDFF06F] 40 = some 40 := by
    decide +kernel
  obtain ⟨platform, hart, run⟩ := Platform.exists_occupyingRun taken
  simp only at run
  refine ⟨Platform.arbitrates 0, fun bounded => ?_⟩
  exact absurd (bounded 40 platform hart run) (by decide)

end Rv32

end RiscvVp
