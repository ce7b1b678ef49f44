import RiscvVp.Device.Clint
import RiscvVp.Device.Trace

/-!
# The order of the times

`update_and_get_mtime` never turns `mtime` back.  `pre_read_mtime` sets it to
the local time of the initiator, whatever it is, so a read over the bus turns
it back exactly when the initiator is behind the register.
-/

namespace RiscvVp

namespace Clint

open Device Trace

/-- Reads of the time, other accesses over the bus, and the thread. -/
inductive TimeEvent : Type
  /-- `get_csr_value` of a hart, at a time of the kernel -/
  | getCsrValue (stamp : BitVec 64)
  /-- a transaction, with the delay of its initiator -/
  | transport (stamp delay : BitVec 64) (trans : Transaction)
  /-- an activation of `run` -/
  | run (stamp : BitVec 64)

/-- The transaction accesses the bytes of `mtime`. -/
def accessesMtime (trans : Transaction) : Bool :=
  0xBFF8 ≤ trans.address && trans.address ≤ 0xBFFF

/-- The event is a write to `mtime`, which is not a read of the time. -/
def TimeEvent.writesMtime : TimeEvent → Bool
  | .transport _ _ transaction =>
      transaction.command == .write && accessesMtime transaction
  | _ => false

/-- The initiator is not behind the register that it reads. -/
def Punctual (clint : Clint) : TimeEvent → Prop
  | .transport stamp delay transaction =>
      transaction.command = .read → accessesMtime transaction = true →
        clint.mtime ≤ (stamp + (delay + 2 * clockCycle)) / scaler
  | _ => True

section Cores

variable (numberOfCores : ℕ)

def step (clint : Clint) : TimeEvent → Except Failure Clint
  | .getCsrValue stamp => .ok (clint.updateAndGetMtime stamp).2
  | .transport stamp delay transaction =>
      (transport numberOfCores stamp delay transaction clint).map Prod.snd
  | .run stamp => .ok (clint.run numberOfCores stamp)

/-- The value that a hart is given by the event. -/
def returned (clint : Clint) : TimeEvent → List (BitVec 64)
  | .getCsrValue stamp => [(clint.updateAndGetMtime stamp).1]
  | _ => []

/-- The values of `mtime` that are stored and returned, in their order, until
a transaction fails. -/
def history : List TimeEvent → Clint → List (BitVec 64)
  | [], clint => [clint.mtime]
  | event :: events, clint =>
      clint.mtime ::
        match step numberOfCores clint event with
        | .ok later => returned clint event ++ history events later
        | .error _ => []

/-- No value is smaller than one before it. -/
def NeverDecreases (events : List TimeEvent) (clint : Clint) : Prop :=
  (history numberOfCores events clint).Pairwise (· ≤ ·)

instance (events : List TimeEvent) (clint : Clint) :
    Decidable (NeverDecreases numberOfCores events clint) :=
  inferInstanceAs (Decidable (List.Pairwise _ _))

def Steps (clint : Clint) (event : TimeEvent) (later : Clint) : Prop :=
  step numberOfCores clint event = .ok later

end Cores

/-! ## One event -/

theorem le_updateAndGetMtime (stamp : BitVec 64) (clint : Clint) :
    clint.mtime ≤ (clint.updateAndGetMtime stamp).2.mtime := by
  unfold updateAndGetMtime
  dsimp only
  split
  next behind =>
    rw [mtime_setMtime]
    exact BitVec.le_of_lt behind
  next => exact BitVec.le_refl _

theorem regsMtime_process (stamp : BitVec 64) (clint : Clint) (hart : ℕ) :
    (clint.process stamp hart).regsMtime = clint.regsMtime := by
  unfold process
  dsimp only
  split
  · rfl
  split
  · rfl
  · rfl

theorem regsMtime_processes (stamp : BitVec 64) (harts : List ℕ)
    (clint : Clint) :
    (harts.foldl (process stamp) clint).regsMtime = clint.regsMtime := by
  induction harts generalizing clint with
  | nil => rfl
  | cons hart rest inductionHypothesis =>
      rw [List.foldl_cons, inductionHypothesis, regsMtime_process]

theorem mtime_congr {clint later : Clint}
    (same : later.regsMtime = clint.regsMtime) : later.mtime = clint.mtime := by
  unfold mtime
  rw [same]

theorem mtime_run (numberOfCores : ℕ) (stamp : BitVec 64) (clint : Clint) :
    (clint.run numberOfCores stamp).mtime =
      (clint.updateAndGetMtime stamp).2.mtime := by
  apply mtime_congr
  unfold run
  rw [regsMtime_processes]

section Bus

variable {numberOfCores : ℕ} {stamp delay : BitVec 64} {trans : Transaction}
  {clint later : Clint} {reply : List Byte}

/-- The first range holds `mtime` and nothing else does. -/
theorem find_eq_mtime_iff :
    registerRanges.find? (fun id =>
        (range numberOfCores stamp delay id).contains trans.address) =
          some .mtime ↔ accessesMtime trans = true := by
  have contains : (range numberOfCores stamp delay .mtime).contains
      trans.address = accessesMtime trans := rfl
  rw [registerRanges, List.find?_cons, contains]
  cases accessesMtime trans with
  | true => simp
  | false =>
      refine iff_of_false (fun found => ?_) nofun
      have member := List.mem_of_find?_eq_some found
      simp at member

/-- What a transaction does to `mtime`. -/
theorem mtime_of_transport
    (succeeds : transport numberOfCores stamp delay trans clint =
      .ok (reply, later))
    (unwritten : (trans.command == .write && accessesMtime trans) = false) :
    if trans.command = .read ∧ accessesMtime trans = true then
      later.mtime = (stamp + (delay + 2 * clockCycle)) / scaler
    else later.mtime = clint.mtime := by
  obtain ⟨id, found, processed⟩ := route_eq_ok.1 succeeds
  rcases RegisterRange.process_command processed with isRead | isWrite
  · obtain ⟨_, proceeds, middle, before, rest⟩ :=
      RegisterRange.process_read isRead processed
    cases id with
    | mtime =>
        rw [if_pos ⟨isRead, find_eq_mtime_iff.1 found⟩]
        cases before
        cases rest.2
        exact mtime_setMtime _ _
    | mtimecmp | msip =>
        have apart : accessesMtime trans ≠ true := fun accesses => by
          cases found.symm.trans (find_eq_mtime_iff.2 accesses)
        rw [if_neg fun both => apart both.2]
        cases before
        cases rest.2
        rfl
  · obtain ⟨_, proceeds, middle, before, rest⟩ :=
      RegisterRange.process_write isWrite processed
    rw [if_neg fun both => by cases isWrite.symm.trans both.1]
    cases id with
    | mtime =>
        rw [isWrite, find_eq_mtime_iff.1 found] at unwritten
        cases unwritten
    | mtimecmp =>
        cases before
        rw [if_pos rfl] at rest
        change Except.ok (notify _ { clint with regsMtimecmp := _ }) =
          .ok later at rest
        cases rest
        apply mtime_congr
        rw [notify]
    | msip =>
        cases before
        rw [if_pos rfl] at rest
        change postWriteMsip numberOfCores _ _ = .ok later at rest
        unfold postWriteMsip at rest
        simp only [bind_eq_ok, assert_eq_ok] at rest
        obtain ⟨_, _, _, _, same⟩ := rest
        cases same
        exact mtime_congr rfl

end Bus

section Steps

variable {numberOfCores : ℕ} {clint later : Clint} {event : TimeEvent}

/-- An event turns the time back exactly when its initiator is behind. -/
theorem mtime_le_iff_punctual (unwritten : event.writesMtime = false)
    (steps : Steps numberOfCores clint event later) :
    clint.mtime ≤ later.mtime ↔ Punctual clint event := by
  cases event with
  | getCsrValue stamp =>
      cases steps
      exact iff_of_true (le_updateAndGetMtime stamp clint) trivial
  | run stamp =>
      cases steps
      rw [mtime_run]
      exact iff_of_true (le_updateAndGetMtime stamp clint) trivial
  | transport stamp delay trans =>
      obtain ⟨⟨reply, final⟩, succeeds, rfl⟩ := map_eq_ok.1 steps
      have moved := mtime_of_transport succeeds unwritten
      split at moved
      next reads =>
        rw [moved]
        exact ⟨fun ahead _ _ => ahead, fun punctual =>
          punctual reads.1 reads.2⟩
      next other =>
        rw [moved]
        refine iff_of_true (BitVec.le_refl _) fun isRead accesses => ?_
        exact absurd ⟨isRead, accesses⟩ other

/-- What a hart is given is what is stored. -/
theorem eq_mtime_of_returned (steps : Steps numberOfCores clint event later)
    {value : BitVec 64} (given : value ∈ returned clint event) :
    value = later.mtime := by
  cases event with
  | getCsrValue stamp =>
      cases steps
      exact List.mem_singleton.1 given
  | transport stamp delay trans => cases given
  | run stamp => cases given

/-- The first value is the one that is stored at the beginning. -/
theorem exists_history (numberOfCores : ℕ) (events : List TimeEvent)
    (clint : Clint) : ∃ rest,
      history numberOfCores events clint = clint.mtime :: rest := by
  cases events with
  | nil => exact ⟨[], rfl⟩
  | cons event events => exact ⟨_, rfl⟩

theorem neverDecreases_cons (steps : Steps numberOfCores clint event later)
    (events : List TimeEvent) :
    NeverDecreases numberOfCores (event :: events) clint ↔
      clint.mtime ≤ later.mtime ∧
        NeverDecreases numberOfCores events later := by
  obtain ⟨rest, values⟩ := exists_history numberOfCores events later
  have same := fun value member => @eq_mtime_of_returned _ _ _ _ steps value member
  unfold NeverDecreases
  rw [history, show step numberOfCores clint event = .ok later from steps]
  dsimp only
  rw [List.pairwise_cons, List.pairwise_append]
  constructor
  · intro ordered
    refine ⟨ordered.1 later.mtime ?_, ordered.2.2.1⟩
    rw [values]
    exact List.mem_append_right _ List.mem_cons_self
  · intro ordered
    have above : ∀ value ∈ history numberOfCores events later,
        later.mtime ≤ value := by
      intro value member
      have restOrdered := ordered.2
      rw [values] at member restOrdered
      rcases List.mem_cons.1 member with rfl | member
      · exact BitVec.le_refl _
      · exact (List.pairwise_cons.1 restOrdered).1 value member
    refine ⟨fun value member => ?_, ?_, ordered.2, fun value given other member => ?_⟩
    · rcases List.mem_append.1 member with given | member
      · rw [same value given]
        exact ordered.1
      · exact BitVec.le_trans ordered.1 (above value member)
    · refine List.pairwise_of_forall_mem_list fun first given second given' => ?_
      rw [same first given, same second given']
      exact BitVec.le_refl _
    · rw [same value given]
      exact above other member

end Steps

/-- The time never goes back in a run exactly when no initiator reads it over
the bus from behind. -/
theorem neverDecreases_iff (numberOfCores : ℕ) (events : List TimeEvent)
    (clint : Clint)
    (unwritten : ∀ event ∈ events, event.writesMtime = false) :
    NeverDecreases numberOfCores events clint ↔
      EveryStep (Steps numberOfCores) Punctual events clint := by
  induction events generalizing clint with
  | nil => exact iff_of_true (List.pairwise_singleton _ _) trivial
  | cons event events inductionHypothesis =>
      have rest := fun later => inductionHypothesis later fun event member =>
        unwritten event (List.mem_cons_of_mem _ member)
      have here := unwritten event List.mem_cons_self
      cases stepped : step numberOfCores clint event with
      | ok later =>
          rw [neverDecreases_cons stepped, rest later,
            mtime_le_iff_punctual here stepped]
          constructor
          · intro both other steps
            cases stepped.symm.trans steps
            exact both
          · intro every
            exact every later stepped
      | error failure =>
          refine iff_of_true ?_ fun later steps => ?_
          · unfold NeverDecreases
            rw [history, stepped]
            exact List.pairwise_singleton _ _
          · cases stepped.symm.trans steps

/-- A read of the whole register over the bus. -/
def readMtime : Transaction := ⟨.read, 0xBFF8, List.replicate 8 0⟩

theorem neverDecreases_once :
    NeverDecreases 2
      [.getCsrValue 5000000, .transport 5000000 0 readMtime, .run 6000000]
      reset := by
  refine (neverDecreases_iff 2 _ reset ?_).2 ?_
  · decide
  · intro _ first
    cases first
    refine ⟨trivial, fun _ second => ?_⟩
    cases second
    refine ⟨fun _ _ => by decide, fun _ third => ⟨trivial, trivial⟩⟩

/-- One hart reads 20 ns ahead of the kernel, across a tick, and the other
reads without a delay. -/
theorem not_neverDecreases :
    ¬ ∀ events : List TimeEvent,
      (∀ event ∈ events, event.writesMtime = false) →
        NeverDecreases 2 events reset := by
  intro monotone
  refine absurd (monotone
    [.transport 970000 20000 readMtime, .transport 970000 0 readMtime]
    (by decide)) ?_
  decide +kernel

end Clint

end RiscvVp
