import Mathlib
import RiscvVp.Interaction.Triple
import RiscvVp.Rv32.BusLock
import RiscvVp.Rv32.Footprint
import RiscvVp.Rv32.Platform

/-!
# Reservations are bounded

A load-reserved takes the bus lock and opens a window of seventeen
instructions, itself included; while the window is open the hart does not give
way at the end of its quantum.  A conditional store, a `WFI`, a trap, an
interrupt and the end of the window give up both.

Outside the timing build a load-reserved inside an open window leaves the
window alone, so that the bound holds of every program.  The timing build
starts the window anew, and a loop around a load-reserved keeps the lock for
ever; without such a load-reserved the bound holds there as well.
-/

namespace RiscvVp

namespace Rv32

open Csr Interaction

/-! ## The window -/

/-- The frame of everything that leaves the window, and the number of the
hart, alone. -/
def windowKept : Frame Hart Fatal where
  pre _ := True
  related before after :=
    after.hartId = before.hartId ∧ after.lrScCounter = before.lrScCounter
  refl _ := ⟨rfl, rfl⟩
  trans left right := ⟨right.1.trans left.1, right.2.trans left.2⟩
  stable _ _ := trivial
  aborts _ := True

instance : Supplies windowKept where
  tlb _ _ _ := ⟨rfl, rfl⟩
  lrAddr _ _ _ := ⟨rfl, rfl⟩
  interrupt event hart _ := by
    rw [Hart.interrupt_eq]
    exact ⟨rfl, rfl⟩
  listed _ _ := trivial
  mode _ _ _ _ := trivial
  time _ _ _ := ⟨rfl, rfl⟩
  cycle _ _ _ := ⟨rfl, rfl⟩
  pipeline _ _ _ := ⟨rfl, rfl⟩
  pending := trivial
  syscall := trivial

/-- What a window becomes when a load-reserved completes that does not start
an open window anew. -/
def window (lrScCounter : Int) : Int :=
  if lrScCounter = 0 then Exec.lrScWindow else lrScCounter

section Lock

variable {G : Type} {surroundings : Surroundings Reply G}
  {busLock : G → BusLock} {hartId : BitVec 32} {α β : Type}

/-- Neither the window nor a lock that is not held is affected. -/
theorem quiet_under (arbitrates : Arbitrates surroundings busLock hartId)
    (machine : HartM α) [framed : Machine.Framed windowKept machine]
    [asking : Machine.Asking LockFree machine] (world : G) (hart : Hart) :
    (machine hart).Under surroundings.monitor world fun last outcome =>
      (∀ after, outcome.state? = some after →
        windowKept.related hart after) ∧
      ((busLock world).isLocked hartId = false →
        (busLock last).isLocked hartId = false) := by
  have kept := (framed.framed hart trivial).under surroundings world
  by_cases released : (busLock world).isLocked hartId = false
  · refine (kept.and (arbitrates.asks (asking.asking hart) released)).mono
      fun _ _ holds => ?_
    exact ⟨holds.1.1, fun _ => holds.2⟩
  · refine kept.mono fun _ _ holds => ?_
    exact ⟨holds.1, fun contrary => absurd contrary released⟩

/-- What is preserved while neither the window nor a lock that is not held is
affected. -/
theorem quiet_achieves (arbitrates : Arbitrates surroundings busLock hartId)
    {holds : G → Hart → Prop} (machine : HartM α)
    [Machine.Framed windowKept machine] [Machine.Asking LockFree machine]
    (stable : ∀ {world last before after}, holds world before →
      windowKept.related before after →
      ((busLock world).isLocked hartId = false →
        (busLock last).isLocked hartId = false) → holds last after) :
    Machine.Achieves surroundings holds machine fun _ => holds := by
  intro world hart start
  refine (quiet_under arbitrates machine world hart).mono
    fun last outcome kept value after same => ?_
  subst same
  exact stable start (kept.1 after rfl) kept.2

/-- The machine, when the hart of this number runs it and it completes, has
given up the lock. -/
abbrev Releases (surroundings : Surroundings Reply G) (busLock : G → BusLock)
    (hartId : BitVec 32) (machine : HartM α) : Prop :=
  Machine.Achieves surroundings (fun _ hart => hart.hartId = hartId) machine
    fun _ world _ => (busLock world).isLocked hartId = false

namespace Releases

/-- A release at the end of a sequence. -/
theorem after {first : HartM α} {rest : α → HartM β}
    [framed : Machine.Framed windowKept first]
    (releases : ∀ value,
      Releases surroundings busLock hartId (rest value)) :
    Releases surroundings busLock hartId (first >>= rest) := by
  refine Machine.Achieves.bind (fun world hart named => ?_) releases
  refine ((framed.framed hart trivial).under surroundings world).mono
    fun last outcome kept value middle same => ?_
  subst same
  exact (kept.1 middle rfl).1.trans named

variable (arbitrates : Arbitrates surroundings busLock hartId)

include arbitrates

/-- A release before the end of a sequence. -/
theorem before {first : HartM α} {rest : α → HartM β}
    (releases : Releases surroundings busLock hartId first)
    [asking : ∀ value, Machine.Asking LockFree (rest value)] :
    Releases surroundings busLock hartId (first >>= rest) :=
  releases.bind fun value _ middle released =>
    (arbitrates.asks ((asking value).asking middle) released).mono
      fun _ _ free _ _ _ => free

theorem atomicUnlock :
    Releases surroundings busLock hartId Memory.atomicUnlock := by
  intro world hart named
  unfold Memory.atomicUnlock
  rw [Machine.under_bind, Machine.reads_apply, Program.under_ret]
  dsimp only
  rw [named, call, Machine.request_apply, Program.under_call]
  refine ⟨trivial, fun reply allowed value after _ => ?_⟩
  change (busLock (surroundings.next world _ reply)).isLocked hartId = false
  rw [arbitrates.unlock allowed]
  exact BusLock.isLocked_unlock_self _ _

variable (cfg : Config) (addr : BitVec 64)

/-- Every store gives up the lock, also one of the page walker. -/
theorem rawStoreData (kind : StoreKind) (bytes : Nat)
    (data : BitVec (8 * bytes)) :
    Releases surroundings busLock hartId
      (Memory.rawStoreData cfg kind bytes addr data) := by
  unfold Memory.rawStoreData
  refine after fun _ => ?_
  dsimp only
  refine after fun _ => ?_
  split
  · exact after fun _ => atomicUnlock arbitrates
  · exact atomicUnlock arbitrates

theorem storeData (bytes : Nat) (data : BitVec (8 * bytes)) :
    Releases surroundings busLock hartId
      (Memory.storeData cfg bytes addr data) := by
  unfold Memory.storeData
  exact after fun paddr => rawStoreData arbitrates cfg paddr .data bytes data

theorem atomicStoreWord (value : BitVec 32) :
    Releases surroundings busLock hartId
      (Memory.atomicStoreWord cfg addr value) := by
  have checked (condition : Bool) : Machine.Framed windowKept
      (Machine.assert condition .amoNotLocked : HartM Unit) :=
    Machine.Framed.assert trivial
  unfold Memory.atomicStoreWord
  refine after fun locked => ?_
  refine after fun _ => ?_
  exact before arbitrates (storeData arbitrates cfg addr 4 value)

/-- A conditional store that completes leaves no reservation, whether it has
stored or not. -/
theorem atomicStoreConditionalWord (value : BitVec 32) :
    Releases surroundings busLock hartId
      (Memory.atomicStoreConditionalWord cfg addr value) := by
  intro world hart named
  unfold Memory.atomicStoreConditionalWord Memory.isLocked
  rw [Machine.under_bind, Machine.under_bind, Machine.reads_apply,
    Program.under_ret]
  dsimp only
  rw [named, call, Machine.request_apply, Program.under_call]
  refine ⟨trivial, fun locked allowed => ?_⟩
  rw [Program.under_ret]
  dsimp only [id]
  split
  next owned =>
    have gives : Releases surroundings busLock hartId <|
        (Machine.reads Hart.lrAddr : HartM (BitVec 64)) >>= fun lrAddr =>
          if addr = lrAddr then
            observe (.conditionalPasses addr) >>= fun _ =>
              Memory.storeData cfg 4 addr value >>= fun _ =>
                observe (.conditionalSucceeds addr) >>= fun _ => pure true
          else Memory.atomicUnlock >>= fun _ => pure false := by
      refine after fun lrAddr => ?_
      split
      · refine after fun _ => ?_
        exact before arbitrates (storeData arbitrates cfg addr 4 value)
      · exact before arbitrates (atomicUnlock arbitrates)
    exact gives _ hart named
  next free =>
    have answered := arbitrates.isLocked allowed
    intro _ _ _
    have lockFree : LockFree (.isLocked hartId) := trivial
    refine arbitrates.not_isLocked lockFree allowed ?_
    rw [← answered]
    exact Bool.eq_false_iff.2 free

end Releases

end Lock

/-! ## Bodies -/

/-- What is known of the reservation along the body of an instruction. -/
structure Reservation where
  lrScCounter : Int
  released : Bool

namespace Reservation

def after (reservation : Reservation) : Action → Reservation
  | .setLrScCounter value => { reservation with lrScCounter := value }
  | .releaseLrScReservation => ⟨0, true⟩
  | .atomicStoreWord _ _ | .atomicStoreConditionalWord _ _ =>
      { reservation with released := true }
  | .amoLoadWord _ | .atomicLoadReservedWord _ =>
      { reservation with released := false }
  | _ => reservation

def answers (reservation : Reservation) :
    (action : Action) → action.Answer → Prop
  | .lrScCounter, lrScCounter => lrScCounter = reservation.lrScCounter
  | _, _ => True

/-- An instruction closes the window or makes the most of a load-reserved, and
it does not end with a closed window and the lock held. -/
structure Bounded (start last : Reservation) : Prop where
  lrScCounter : last.lrScCounter = 0 ∨
    last.lrScCounter = window start.lrScCounter
  released : (start.lrScCounter = 0 → start.released = true) →
    last.lrScCounter = 0 → last.released = true

theorem Bounded.refl (reservation : Reservation) :
    Bounded reservation reservation where
  lrScCounter := by
    unfold window
    split
    next closed => exact .inl closed
    next => exact .inr rfl
  released kept := kept

end Reservation

/-- The monitor of a body, which follows its reservation. -/
def reserving (op : Mapping) (instr : Instruction) :
    Monitor Action.Answer Reservation where
  requires _ := mayPerform op instr
  allows := Reservation.answers
  next reservation action _ := reservation.after action

section Bodies

open Body Program

variable {α : Type} {op : Mapping} {instr : Instruction}
  {reservation : Reservation}

theorem reserving_act (action : Action) (receive : action.Answer → α)
    (property : Reservation → α → Prop) :
    (act action receive).Under (reserving op instr) reservation property ↔
      mayPerform op instr action ∧
        ∀ reply, reservation.answers action reply →
          property (reservation.after action) (receive reply) := by
  simp [act, ask, under_call, reserving]

theorem reserving_raiseTrap (reason : ExceptionCode) (mtval : BitVec 64)
    (property : Reservation → α → Prop) :
    (raiseTrap reason mtval).Under (reserving op instr) reservation
      property := by
  rw [raiseTrap, under_call]
  exact ⟨trivial, fun never => by cases never⟩

theorem reserving_ite (condition : Prop) [Decidable condition]
    (first second : Body α) (property : Reservation → α → Prop) :
    (if condition then first else second).Under (reserving op instr)
        reservation property ↔
      (condition →
        first.Under (reserving op instr) reservation property) ∧
      (¬ condition →
        second.Under (reserving op instr) reservation property) := by
  by_cases holds : condition <;> simp [holds]

end Bodies

/-- The opcodes that have to do with reservations. -/
def isReserving (op : Mapping) : Bool :=
  op == .lrW || op == .scW || op == .wfi || isAmo op

/-- The other opcodes leave the reservation as it is. -/
theorem after_of_not_isReserving {op : Mapping} {instr : Instruction}
    {action : Action} (other : isReserving op = false)
    (permitted : mayPerform op instr action) (reservation : Reservation) :
    reservation.after action = reservation := by
  cases action with
  | setLrScCounter value =>
      rcases permitted with ⟨rfl, _⟩ | ⟨rfl, _⟩ <;> cases other
  | releaseLrScReservation =>
      cases permitted
      cases other
  | atomicStoreWord | amoLoadWord =>
      have member : isAmo op = true := permitted
      simp [isReserving, member] at other
  | atomicStoreConditionalWord | atomicLoadReservedWord =>
      cases permitted
      cases other
  | _ => rfl

namespace Exec

open Body Program

variable (cfg : Config) (instr : Instruction) (start : Reservation)

/-- In the timing build the window must be closed. -/
theorem lrW_reserving
    (rearms : cfg.pipelineTiming = true → start.lrScCounter = 0) :
    (lrW cfg instr).Under (reserving .lrW instr) start fun last _ =>
      start.Bounded last := by
  have opened (last : Reservation)
      (counter : last.lrScCounter = window start.lrScCounter) :
      start.Bounded last := by
    refine ⟨.inr counter, fun _ closed => ?_⟩
    rw [counter, window] at closed
    split at closed
    next => cases closed
    next nonzero => exact absurd closed nonzero
  unfold lrW
  split
  next timing =>
    have fresh := opened ⟨lrScWindow, false⟩ <| by
      rw [window, if_pos (rearms timing)]
    simp [requireIsa, raiseIllegal, csr, trapCheckAddrAlignment,
      atomicLoadReservedWord, Body.read, write, accessRegister, reg, setReg,
      under_bind, reserving_act, reserving_ite, reserving_raiseTrap,
      mayPerform, Reservation.after, fresh]
  next =>
    have closed (zero : start.lrScCounter = 0) :=
      opened ⟨lrScWindow, false⟩ <| by rw [window, if_pos zero]
    have openWindow (nonzero : ¬ start.lrScCounter = 0) :=
      opened ⟨start.lrScCounter, false⟩ <| by rw [window, if_neg nonzero]
    simp [requireIsa, raiseIllegal, csr, trapCheckAddrAlignment,
      atomicLoadReservedWord, reg, setReg, under_bind, reserving_act,
      reserving_ite, reserving_raiseTrap, mayPerform, Reservation.after,
      Reservation.answers]
    exact fun _ _ _ _ => ⟨closed, openWindow⟩

theorem scW_reserving :
    (scW cfg instr).Under (reserving .scW instr) start fun last _ =>
      start.Bounded last := by
  have given : start.Bounded ⟨0, true⟩ := ⟨.inl rfl, fun _ _ => rfl⟩
  simp [scW, requireIsa, raiseIllegal, csr, trapCheckAddrAlignment,
    atomicStoreConditionalWord, Body.read, write, accessRegister, reg, setReg,
    under_bind, reserving_act, reserving_ite, reserving_raiseTrap, mayPerform,
    Reservation.after, given]

theorem amo_reserving {op : Mapping} (member : isAmo op = true)
    (operation : BitVec 32 → BitVec 32 → BitVec 32) :
    (amo instr operation).Under (reserving op instr) start fun last _ =>
      start.Bounded last := by
  have given : start.Bounded ⟨start.lrScCounter, true⟩ :=
    ⟨(Reservation.Bounded.refl start).lrScCounter, fun _ _ => rfl⟩
  simp [amo, executeAmo, requireIsa, raiseIllegal, csr,
    trapCheckAddrAlignment, reg, setReg, under_bind, reserving_act,
    reserving_ite, reserving_raiseTrap, mayPerform, member,
    Reservation.after, given]

theorem wfi_reserving :
    (wfi instr).Under (reserving .wfi instr) start fun last _ =>
      start.Bounded last := by
  have given : start.Bounded ⟨0, true⟩ := ⟨.inl rfl, fun _ _ => rfl⟩
  simp [wfi, prv, csr, mstatusIsSet, hasExtension,
    hasLocalPendingEnabledInterrupts, raiseIllegal, under_bind, reserving_act,
    reserving_ite, reserving_raiseTrap, mayPerform, Reservation.after, given]

end Exec

/-- Every case of the switch is bounded, apart from a load-reserved of the
timing build in an open window. -/
theorem execute_reserving (cfg : Config) (instr : Instruction) {op : Mapping}
    (accepted : hasCase op = true) (start : Reservation)
    (rearms : op = .lrW → cfg.pipelineTiming = true → start.lrScCounter = 0) :
    (execute cfg instr op).Under (reserving op instr) start fun last _ =>
      start.Bounded last := by
  cases reserves : isReserving op with
  | true =>
      unfold isReserving at reserves
      simp only [Bool.or_eq_true, beq_iff_eq] at reserves
      rcases reserves with ((rfl | rfl) | rfl) | member
      · exact Exec.lrW_reserving cfg instr start (rearms rfl)
      · exact Exec.scW_reserving cfg instr start
      · exact Exec.wfi_reserving instr start
      · cases op <;> first
          | exact Exec.amo_reserving instr start member _
          | cases member
  | false =>
      have unchanged := @Program.Asks.under _ _ _ _ _ (reserving op instr)
        (fun last => last = start) _
        (execute_withinFootprint cfg instr accepted)
        (fun _ _ permitted _ => permitted)
        (fun last action _ permitted _ same =>
          (after_of_not_isReserving reserves permitted last).trans same)
        start rfl
      refine unchanged.mono fun last _ same => ?_
      rw [same]
      exact .refl start

end Rv32

end RiscvVp
