import Mathlib.Logic.Relation
import RiscvVp.Interaction.Conduct
import RiscvVp.Rv32.Execute

/-!
# The bus lock

`BusLock` is shared by all harts.  A hart reaches it through its calls only;
meanwhile the other harts may take it when it is free and give it up when it
is theirs, so that whether this hart holds it is up to this hart.

Only an AMO and a load-reserved take the lock: everything else that a step is
made of is `LockFree`.
-/

namespace RiscvVp

namespace Rv32

open Interaction

/-- `BusLock` -/
structure BusLock where
  locked : Bool := false
  owner : BitVec 32 := 0
  deriving DecidableEq

namespace BusLock

/-- `lock`, when it does not have to wait for another owner. -/
def lock (busLock : BusLock) (hartId : BitVec 32) : Option BusLock :=
  if busLock.locked && hartId != busLock.owner then none
  else some ⟨true, hartId⟩

def unlock (busLock : BusLock) (hartId : BitVec 32) : BusLock :=
  if busLock.locked && busLock.owner == hartId then
    { busLock with locked := false }
  else busLock

/-- `is_locked(hart_id)` -/
def isLocked (busLock : BusLock) (hartId : BitVec 32) : Bool :=
  busLock.locked && busLock.owner == hartId

/-- One use of the lock by a hart other than this one. -/
inductive Move (hartId : BitVec 32) : BusLock → BusLock → Prop
  | lock {before after : BusLock} {other : BitVec 32}
      (different : other ≠ hartId)
      (granted : before.lock other = some after) : Move hartId before after
  | unlock (before : BusLock) {other : BitVec 32}
      (different : other ≠ hartId) : Move hartId before (before.unlock other)

/-- What the other harts may do to the lock while this one waits. -/
abbrev Moves (hartId : BitVec 32) : BusLock → BusLock → Prop :=
  Relation.ReflTransGen (Move hartId)

variable {hartId : BitVec 32} {before after : BusLock}

theorem isLocked_of_move (move : Move hartId before after) :
    after.isLocked hartId = before.isLocked hartId := by
  cases move with
  | lock different granted =>
      unfold lock at granted
      split at granted
      next => cases granted
      next free =>
        cases granted
        simp only [isLocked, Bool.and_eq_true, bne_iff_ne, not_and, not_not]
          at free ⊢
        cases locked : before.locked with
        | false => simpa using different
        | true => simp [← free locked]
  | unlock different =>
      unfold unlock isLocked
      split
      next owned =>
        simp only [Bool.and_eq_true, beq_iff_eq] at owned
        simp [owned.2, different]
      next => rfl

/-- The other harts cannot take the lock from this one, nor give it to it. -/
theorem isLocked_of_moves (moves : Moves hartId before after) :
    after.isLocked hartId = before.isLocked hartId := by
  induction moves with
  | refl => rfl
  | tail _ move inductionHypothesis =>
      exact (isLocked_of_move move).trans inductionHypothesis

theorem isLocked_unlock_self (busLock : BusLock) (hartId : BitVec 32) :
    (busLock.unlock hartId).isLocked hartId = false := by
  unfold unlock isLocked
  split
  · rfl
  next other => simpa using other

end BusLock

/-! ## Surroundings with a lock -/

/-- The calls that do not take the lock. -/
def LockFree : Call → Prop
  | .lock _ => False
  | _ => True

/-- The surroundings of the hart keep a bus lock.  Its own calls of `lock` and
`unlock` do what `BusLock` does, its question is answered from the lock, and
during any other call the other harts may use the lock. -/
structure Arbitrates {G : Type} (surroundings : Surroundings Reply G)
    (busLock : G → BusLock) (hartId : BitVec 32) : Prop where
  lock : ∀ {world reply}, surroundings.allows world (.lock hartId) reply →
    busLock (surroundings.next world (.lock hartId) reply) = ⟨true, hartId⟩
  unlock : ∀ {world reply},
    surroundings.allows world (.unlock hartId) reply →
      busLock (surroundings.next world (.unlock hartId) reply) =
        (busLock world).unlock hartId
  isLocked : ∀ {world reply},
    surroundings.allows world (.isLocked hartId) reply →
      reply = (busLock world).isLocked hartId
  others : ∀ {world request reply}, LockFree request →
    request ≠ .unlock hartId → surroundings.allows world request reply →
      BusLock.Moves hartId (busLock world)
        (busLock (surroundings.next world request reply))

section Arbitrates

variable {G : Type} {surroundings : Surroundings Reply G}
  {busLock : G → BusLock} {hartId : BitVec 32}

/-- The lock is not acquired by a call that does not ask for it. -/
theorem Arbitrates.not_isLocked
    (arbitrates : Arbitrates surroundings busLock hartId) {world : G}
    {request : Call} {reply : Reply request} (lockFree : LockFree request)
    (allowed : surroundings.allows world request reply)
    (released : (busLock world).isLocked hartId = false) :
    (busLock (surroundings.next world request reply)).isLocked hartId =
      false := by
  by_cases unlocks : request = .unlock hartId
  · subst unlocks
    rw [arbitrates.unlock allowed]
    exact BusLock.isLocked_unlock_self _ _
  · have moves := arbitrates.others lockFree unlocks allowed
    rw [BusLock.isLocked_of_moves moves]
    exact released

/-- A program that never asks for the lock does not acquire it. -/
theorem Arbitrates.asks (arbitrates : Arbitrates surroundings busLock hartId)
    {α : Type} {program : Program Reply α} (asks : program.Asks LockFree)
    {world : G} (released : (busLock world).isLocked hartId = false) :
    program.Under surroundings.monitor world fun last _ =>
      (busLock last).isLocked hartId = false :=
  @Program.Asks.under _ _ _ _ _ _
    (fun world => (busLock world).isLocked hartId = false) _ asks
    (fun _ _ _ _ => trivial)
    (fun _ _ _ lockFree allowed => arbitrates.not_isLocked lockFree allowed)
    _ released

end Arbitrates

/-! ## What only makes ordinary calls -/

/-- Neither the lock nor the quantum keeper is called. -/
def Call.isOrdinary : Call → Bool
  | .lock _ | .needSync _ | .sync => false
  | _ => true

/-- An ordinary call that hands no data of the program to the surroundings. -/
def Call.isQuiet : Call → Bool
  | .write .data _ _ _ | .dmiStore .data _ _ _ _ | .executeSyscall _ _ _ _ _ =>
      false
  | question => question.isOrdinary

/-- The quiet calls are permitted. -/
class PermitsQuiet (permitted : Call → Prop) : Prop where
  quiet : ∀ question : Call, question.isQuiet = true → permitted question

/-- The ordinary calls are permitted. -/
class PermitsOrdinary (permitted : Call → Prop) : Prop where
  ordinary : ∀ question : Call, question.isOrdinary = true → permitted question

/-- The stores of one kind are permitted. -/
class PermitsStores (permitted : Call → Prop) (kind : StoreKind) : Prop where
  write : ∀ bytes addr data, permitted (.write kind bytes addr data)
  dmiStore : ∀ range bytes addr data,
    permitted (.dmiStore kind range bytes addr data)

instance : PermitsOrdinary LockFree where
  ordinary question ordinary := by
    cases question with
    | lock => cases ordinary
    | _ => trivial

section Permits

variable {permitted : Call → Prop}

instance [permits : PermitsOrdinary permitted] : PermitsQuiet permitted where
  quiet question quiet := by
    apply permits.ordinary
    cases question with
    | lock | needSync | sync => cases quiet
    | _ => rfl

instance [permits : PermitsQuiet permitted] : PermitsStores permitted .pte where
  write _ _ _ := permits.quiet _ rfl
  dmiStore _ _ _ _ := permits.quiet _ rfl

instance [permits : PermitsOrdinary permitted] (kind : StoreKind) :
    PermitsStores permitted kind where
  write _ _ _ := permits.ordinary _ rfl
  dmiStore _ _ _ _ := permits.ordinary _ rfl

end Permits

theorem asking_call {α : Type} (permitted : Call → Prop)
    [permits : PermitsQuiet permitted] (question : Call)
    (quiet : question.isQuiet = true) (receive : Reply question → α) :
    Machine.Asking permitted (call question receive) :=
  Machine.Asking.request (permits.quiet question quiet) receive

variable {permitted : Call → Prop} [PermitsQuiet permitted]

instance (observation : Observation) :
    Machine.Asking permitted (observe observation) :=
  asking_call permitted (.observe observation) rfl _

instance (interrupts : List InterruptEvent) :
    Machine.Asking permitted (deliver interrupts) := by
  unfold deliver
  infer_instance

namespace Memory

variable (cfg : Config)

instance : Machine.Asking permitted isLocked := by
  have asked (hartId : BitVec 32) : Machine.Asking permitted
      (call (.isLocked hartId) : HartM Bool) :=
    asking_call permitted (.isLocked hartId) rfl _
  unfold isLocked
  infer_instance

instance : Machine.Asking permitted waitForAccessRights := by
  have asked (hartId : BitVec 32) : Machine.Asking permitted
      (call (.waitForAccessRights hartId) : HartM (List InterruptEvent)) :=
    asking_call permitted (.waitForAccessRights hartId) rfl _
  unfold waitForAccessRights
  infer_instance

instance : Machine.Asking permitted atomicUnlock := by
  have asked (hartId : BitVec 32) : Machine.Asking permitted
      (call (.unlock hartId) : HartM Unit) :=
    asking_call permitted (.unlock hartId) rfl _
  unfold atomicUnlock
  infer_instance

instance (bytes : Nat) (addr : BitVec 64) :
    Machine.Asking permitted (readTransaction bytes addr) := by
  have := asking_call permitted (.read bytes addr) rfl id
  refine @Machine.Asking.bind _ _ _ _ _ _ _ _ _ _ _ fun reply => ?_
  cases reply <;> infer_instance

instance (kind : StoreKind) [permits : PermitsStores permitted kind]
    (bytes : Nat) (addr : BitVec 64) (data : BitVec (8 * bytes)) :
    Machine.Asking permitted (writeTransaction kind bytes addr data) := by
  have : Machine.Asking permitted
      (call (.write kind bytes addr data) : HartM (BusReply Unit)) :=
    Machine.Asking.request (permits.write bytes addr data) id
  refine @Machine.Asking.bind _ _ _ _ _ _ _ _ _ _ _ fun reply => ?_
  cases reply <;> infer_instance

instance (range : DmiRange) (bytes : Nat) (addr : BitVec 64) :
    Machine.Asking permitted (dmiLoad range bytes addr) := by
  have := asking_call permitted (.dmiLoad range bytes addr) rfl id
  exact Machine.Asking.bind _ _

instance (kind : StoreKind) [permits : PermitsStores permitted kind]
    (range : DmiRange) (bytes : Nat) (addr : BitVec 64)
    (data : BitVec (8 * bytes)) :
    Machine.Asking permitted (dmiStore kind range bytes addr data) := by
  have : Machine.Asking permitted
      (call (.dmiStore kind range bytes addr data) : HartM Unit) :=
    Machine.Asking.request (permits.dmiStore range bytes addr data) id
  exact Machine.Asking.bind _ _

instance (bytes : Nat) (addr : BitVec 64) :
    Machine.Asking permitted (rawLoadData cfg bytes addr) := by
  unfold rawLoadData
  refine @Machine.Asking.bind _ _ _ _ _ _ _ _ _ _ _ fun _ => ?_
  split <;> infer_instance

instance (kind : StoreKind) [PermitsStores permitted kind] (bytes : Nat)
    (addr : BitVec 64) (data : BitVec (8 * bytes)) (ranges : List DmiRange) :
    Machine.Asking permitted (dmiStores kind bytes addr data ranges) := by
  induction ranges with
  | nil => exact inferInstanceAs (Machine.Asking permitted (pure ()))
  | cons range rest inductionHypothesis =>
      unfold dmiStores
      infer_instance

instance (kind : StoreKind) [PermitsStores permitted kind] (bytes : Nat)
    (addr : BitVec 64) (data : BitVec (8 * bytes)) :
    Machine.Asking permitted (rawStoreData cfg kind bytes addr data) := by
  unfold rawStoreData
  infer_instance

instance (question : Mmu.Call) :
    Machine.Asking permitted (answerMmu cfg question) := by
  unfold answerMmu
  cases question <;> dsimp only <;> infer_instance

instance (vaddr : BitVec 64) (type : MemoryAccessType) :
    Machine.Asking permitted (v2p cfg vaddr type) := by
  unfold v2p runMmu
  infer_instance

instance (bytes : Nat) (addr : BitVec 64) :
    Machine.Asking permitted (loadData cfg bytes addr) := by
  unfold loadData
  infer_instance

instance [PermitsStores permitted .data] (bytes : Nat) (addr : BitVec 64)
    (data : BitVec (8 * bytes)) :
    Machine.Asking permitted (storeData cfg bytes addr data) := by
  unfold storeData
  infer_instance

instance (addr : BitVec 64) :
    Machine.Asking permitted (loadInstr cfg addr) := by
  unfold loadInstr
  split <;> infer_instance

instance : Machine.Asking permitted (flushTlb cfg) := by
  unfold flushTlb
  infer_instance

instance [PermitsStores permitted .data] (addr : BitVec 64)
    (value : BitVec 32) :
    Machine.Asking permitted (atomicStoreWord cfg addr value) := by
  unfold atomicStoreWord
  infer_instance

instance [PermitsStores permitted .data] (addr : BitVec 64)
    (value : BitVec 32) :
    Machine.Asking permitted (atomicStoreConditionalWord cfg addr value) := by
  unfold atomicStoreConditionalWord
  have stores : Machine.Asking permitted (do
      observe (.conditionalPasses addr)
      storeData cfg 4 addr value
      observe (.conditionalSucceeds addr)
      pure true : HartM Bool) := inferInstance
  infer_instance

end Memory

instance : Machine.Asking permitted releaseLrScReservation := by
  unfold releaseLrScReservation
  infer_instance

instance : Machine.Asking permitted waitWfi := by
  have := asking_call permitted (.waitWfi) rfl id
  exact Machine.Asking.bind _ _

instance [permits : PermitsOrdinary permitted] :
    Machine.Asking permitted executeSyscall := by
  have asked (syscall a0 a1 a2 a3 : BitVec 32) : Machine.Asking permitted
      (call (.executeSyscall syscall a0 a1 a2 a3) : HartM SyscallReply) :=
    Machine.Asking.request (permits.ordinary _ rfl) id
  refine @Machine.Asking.bind _ _ _ _ _ _ _ _ _ _ _ fun hart => ?_
  refine @Machine.Asking.bind _ _ _ _ _ _ _ _ _ _ (asked _ _ _ _ _)
    fun reply => ?_
  split <;> infer_instance

instance (event : PipelineEvent) :
    Machine.Asking permitted (advancePipeline event) := by
  unfold advancePipeline
  refine @Machine.Asking.bind _ _ _ _ _ _ _ _ _ _ _ fun pipeline => ?_
  split <;> infer_instance

/-! ### Actions -/

namespace Action

/-- The two actions that take the lock. -/
def takesLock : Action → Bool
  | .amoLoadWord _ | .atomicLoadReservedWord _ => true
  | _ => false

/-- The actions that hand data to the surroundings. -/
def altersMemory : Action → Bool
  | .storeData _ _ _ | .atomicStoreWord _ _
  | .atomicStoreConditionalWord _ _ | .executeSyscall => true
  | _ => false

end Action

instance {α : Type} :
    Machine.Asking permitted (raiseIllegalInstruction : HartM α) := by
  unfold raiseIllegalInstruction
  infer_instance

instance (addr : BitVec 32) (isWrite : Bool) :
    Machine.Asking permitted (isInvalidCsrAccess addr isWrite) := by
  unfold isInvalidCsrAccess
  infer_instance

instance (cfg : Config) (addr : BitVec 32) :
    Machine.Asking permitted (getCsrValue cfg addr) := by
  have := asking_call permitted .updateAndGetMtime rfl id
  have mapped : Machine.Asking permitted (defaultRead32 addr) := by
    unfold defaultRead32
    split <;> infer_instance
  unfold getCsrValue validateCsrCounterReadAccessRights
  refine @Machine.Asking.bind _ _ _ _ _ _ _ _ _ _ _ fun _ => ?_
  split <;> infer_instance

instance (addr value : BitVec 32) :
    Machine.Asking permitted (setCsrValue addr value) := by
  unfold setCsrValue writeCsr
  split
  case h_6 => split <;> infer_instance
  all_goals infer_instance

instance (mode : PrivilegeLevel) :
    Machine.Asking permitted (returnFromTrapHandler mode) := by
  unfold returnFromTrapHandler
  infer_instance

/-- An action that neither takes the lock nor alters memory makes quiet calls
only. -/
theorem perform_unaltering (cfg : Config) {action : Action}
    (free : action.takesLock = false) (alters : action.altersMemory = false) :
    Machine.Asking permitted (perform cfg action) := by
  cases action with
  | amoLoadWord | atomicLoadReservedWord => cases free
  | storeData | atomicStoreWord | atomicStoreConditionalWord
  | executeSyscall => cases alters
  | _ =>
      unfold perform
      infer_instance

/-- An action that does not take the lock makes ordinary calls only. -/
theorem perform_ordinary {permitted : Call → Prop} [PermitsOrdinary permitted]
    (cfg : Config) {action : Action} (free : action.takesLock = false) :
    Machine.Asking permitted (perform cfg action) := by
  cases alters : action.altersMemory with
  | false => exact perform_unaltering cfg free alters
  | true =>
      cases action with
      | storeData | atomicStoreWord | atomicStoreConditionalWord
      | executeSyscall =>
          unfold perform
          infer_instance
      | _ => cases alters

/-! ### The fetch and the end of a step -/

section Step

variable (cfg : Config)

instance : Machine.Asking permitted (issue cfg) := by
  have decodes : Machine.Asking permitted decode := by
    unfold decode raiseIllegalInstruction
    refine @Machine.Asking.bind _ _ _ _ _ _ _ _ _ _ _ fun instr => ?_
    split
    · infer_instance
    split
    · split <;> infer_instance
    · infer_instance
  unfold issue fetch
  infer_instance

instance : Machine.Asking permitted tickLrScCounter := by
  unfold tickLrScCounter
  infer_instance

end Step

end Rv32

end RiscvVp
