import Mathlib
import RiscvVp.Device.Trace
import RiscvVp.Spi.Spi

/-!
# The SPI controller as a channel

What the guest reads from `rxdata` is what the targets answered, in the order in
which they were written to, as long as the guest never leaves more bytes in the
queue than fit.
-/

namespace RiscvVp

namespace Hifive

namespace Spi

open Bits Storage TlmMap Trace

variable {δ ε : Type}

/-! ## One access -/

/-- The data of a read of a register. -/
def readData (trans : Payload) (data : ℕ → Byte) (word : TlmMap.Word) : ℕ → Byte :=
  overwrite data 0 trans.dataLength.toNat fun index =>
    byte word ((trans.address % 4).toNat + index)

/-- The register that a write assigns. -/
def assigned (trans : Payload) (data : ℕ → Byte) (register : Register)
    (spi : Spi δ) : Spi δ :=
  spi.setValue register (written trans (spi.value register) data)

/-- What an access can do. -/
inductive Accessed (trans : Payload) (data : ℕ → Byte) (spi : Spi δ) :
    (ℕ → Byte) → Queueing.Turn Byte → Spi δ → Prop
  | receive (reads : trans.command = .read)
      (found : bank.find trans.address = some Register.rxdata.mapping) :
      Accessed trans data spi
        (readData trans data (spi.beforeRead.2.value .rxdata))
        ⟨none, spi.beforeRead.1⟩ spi.beforeRead.2
  | read {register : Register} (reads : trans.command = .read)
      (found : bank.find trans.address = some register.mapping)
      (other : register ≠ .rxdata) :
      Accessed trans data spi (readData trans data (spi.value register)) {} spi
  | transmit {pushed : Option Byte} {later : Spi δ}
      (writes : trans.command = .write)
      (found : bank.find trans.address = some Register.txdata.mapping)
      (exchanged : (spi.assigned trans data .txdata).afterWrite =
        some (pushed, later)) :
      Accessed trans data spi data ⟨pushed, none⟩ later
  | write {register : Register} (writes : trans.command = .write)
      (found : bank.find trans.address = some register.mapping)
      (other : register ≠ .txdata) :
      Accessed trans data spi data {} (spi.assigned trans data register)

theorem exists_register {address : BitVec 64} {r : RegMapping}
    (found : bank.find address = some r) :
    ∃ register : Register, r = register.mapping := by
  have member : r ∈ Register.all.map Register.mapping :=
    List.mem_of_find?_eq_some found
  obtain ⟨register, -, same⟩ := List.mem_map.1 member
  exact ⟨register, same.symm⟩

@[simp]
theorem mapping_vptr (register : Register) :
    register.mapping.vptr = register.vptr := rfl

theorem vptr_injective {left right : Register}
    (same : left.vptr = right.vptr) : left = right := by
  cases left <;> cases right <;> first | rfl | exact absurd same (by decide)

theorem accessed_of_transport {trans : Payload} {data read : ℕ → Byte}
    {spi later : Spi δ} {turn : Queueing.Turn Byte}
    (transported : spi.transport trans data = .ok (read, turn, later)) :
    Accessed trans data spi read turn later := by
  unfold transport at transported
  split at transported
  next => cases transported
  next => cases transported
  next access accessed =>
    obtain ⟨r, found, allowed, command, rfl⟩ := access_some accessed
    obtain ⟨register, rfl⟩ := exists_register found
    simp only [registerAccessCallback] at transported
    rcases command with reads | writes
    · by_cases receives : register = .rxdata
      · subst receives
        simp only [reads, decide_true, mapping_vptr, true_and, if_true,
          decide_false, Bool.false_eq_true, false_and, if_false,
          reduceCtorEq] at transported
        rw [fn_read reads allowed] at transported
        cases transported
        exact .receive reads found
      · have other : ¬ register.vptr = Register.rxdata.vptr := fun same =>
          receives (vptr_injective same)
        simp only [reads, decide_true, mapping_vptr, true_and, other,
          decide_false, Bool.false_eq_true, false_and, if_false,
          reduceCtorEq] at transported
        rw [fn_read reads allowed] at transported
        cases transported
        exact .read reads found receives
    · have writable := @fn_write trans register.mapping ⟨spi.registers, data⟩
        writes allowed
      have all : ∀ word : TlmMap.Word, word &&& register.mapping.mask = word := by
        intro word
        exact BitVec.and_allOnes
      simp only [writes, decide_false, Bool.false_eq_true, false_and, if_false,
        decide_true, true_and, reduceCtorEq] at transported
      rw [writable, all] at transported
      by_cases transmits : register = .txdata
      · subst transmits
        simp only [mapping_vptr, if_true] at transported
        split at transported
        next => cases transported
        next pushed last exchanged =>
          cases transported
          exact .transmit writes found exchanged
      · have other : ¬ register.vptr = Register.txdata.vptr := fun same =>
          transmits (vptr_injective same)
        simp only [mapping_vptr, other, if_false] at transported
        cases transported
        exact .write writes found transmits

/-! ## Runs -/

/-- The guest accesses a register, or something happens outside. -/
inductive Event (ε : Type) : Type
  | access (trans : Payload) (data : ℕ → Byte)
  | outside (event : ε)

/-- The byte that the guest takes from a transaction: that of `rxdata`, unless it
is flagged. -/
def answer (trans : Payload) (data : ℕ → Byte) : Option Byte :=
  if trans.command = .read ∧ trans.address = Register.rxdata.addr then
    if (ofBytes 4 data : TlmMap.Word).getLsbD 31 then none else some (data 0)
  else none

/-- `rxdata` is read as a whole, and while a target is selected. -/
def Orderly (spi : Spi δ) : Event ε → Prop
  | .access payload _ => payload.command = .read →
      bank.find payload.address = some Register.rxdata.mapping →
        payload.address = Register.rxdata.addr ∧ payload.dataLength = 4 ∧
          spi.selected.isSome
  | .outside _ => True

/-- No byte is pushed while as many wait as fit. -/
def HasRoom (spi : Spi δ) : Event ε → Prop
  | .access payload _ => payload.command = .write →
      bank.find payload.address = some Register.txdata.mapping →
        spi.selected.isSome → spi.rxqueue.length < queueSize
  | .outside _ => True

section Run

variable (happens : ε → δ → δ)

def Steps (spi : Spi δ) : Event ε → Spi δ → Prop
  | .access payload data, later =>
      ∃ read turn, spi.transport payload data = .ok (read, turn, later)
  | .outside event, later =>
      later = { spi with outside := happens event spi.outside }

/-- A run, with what the guest takes and what the targets return. -/
def run : List (Event ε) → Spi δ →
    Except Fault (List Byte × List Byte × Spi δ)
  | [], spi => .ok ([], [], spi)
  | .access payload data :: events, spi => do
      let (read, turn, next) ← spi.transport payload data
      let (answers, replies, last) ← run events next
      return ((answer payload read).toList ++ answers,
        turn.pushed.toList ++ replies, last)
  | .outside event :: events, spi =>
      run events { spi with outside := happens event spi.outside }

end Run

/-! ## What an access does to the queue -/

theorem find_eq {register : Register} {address : BitVec 64}
    (found : bank.find address = some register.mapping) :
    register.addr = address - address % 4 := by
  have clamped := List.find?_some found
  exact of_decide_eq_true clamped

theorem addr_injective {left right : Register}
    (same : left.addr = right.addr) : left = right :=
  vptr_injective (congrArg BitVec.toNat same)

theorem ofBytes_readData {trans : Payload} (start : trans.address % 4 = 0)
    (whole : trans.dataLength = 4) (data : ℕ → Byte) (word : TlmMap.Word) :
    ofBytes 4 (readData trans data word) = word := by
  refine (ofBytes_inj.2 fun index below => ?_).trans (ofBytes_byte word)
  have inside : index < trans.dataLength.toNat := by
    rw [whole]
    exact below
  have place : overwrite data 0 trans.dataLength.toNat
      (fun index => byte word ((trans.address % 4).toNat + index)) (0 + index) =
        byte word ((trans.address % 4).toNat + index) :=
    overwrite_inside inside
  rw [Nat.zero_add, start] at place
  rw [readData, start, place]
  exact congrArg (byte word) (Nat.zero_add index)

theorem readData_zero {trans : Payload} (start : trans.address % 4 = 0)
    (whole : trans.dataLength = 4) (data : ℕ → Byte) (word : TlmMap.Word) :
    readData trans data word 0 = byte word 0 := by
  have bytes := congrArg (fun read => byte read 0)
    (ofBytes_readData start whole data word)
  rwa [byte_ofBytes (by decide)] at bytes

theorem byte_setWidth (low : Byte) :
    byte (low.setWidth (8 * 4)) 0 = low := by
  apply BitVec.eq_of_getLsbD_eq
  intro bit below
  have inside : bit < 32 := below.trans (by decide)
  simp [byte, below, inside]

/-- A whole read of a byte of the queue. -/
theorem answer_readData {trans : Payload} (reads : trans.command = .read)
    (address : trans.address = Register.rxdata.addr)
    (whole : trans.dataLength = 4) (data : ℕ → Byte) (word : TlmMap.Word) :
    answer trans (readData trans data word) =
      if word.getLsbD 31 then none else some (byte word 0) := by
  have start : trans.address % 4 = 0 := by
    rw [address]
    rfl
  rw [answer, if_pos ⟨reads, address⟩, ofBytes_readData start whole,
    readData_zero start whole]

@[simp]
theorem value_setValue (spi : Spi δ) (register : Register) (word : TlmMap.Word) :
    (spi.setValue register word).value register = word :=
  Function.update_self ..

theorem value_setValue_of_ne {register other : Register}
    (different : other ≠ register) (spi : Spi δ) (word : TlmMap.Word) :
    (spi.setValue register word).value other = spi.value other :=
  Function.update_of_ne (fun same => different (vptr_injective same)) ..

theorem afterWrite_turns {spi later : Spi δ} {pushed : Option Byte}
    (exchanged : spi.afterWrite = some (pushed, later)) :
    Queueing.Turns queueSize spi.rxqueue ⟨pushed, none⟩ later.rxqueue ∧
      pushed.isSome = spi.selected.isSome := by
  unfold afterWrite at exchanged
  split at exchanged
  next none =>
    cases exchanged
    exact ⟨.idle _, by rw [none]; rfl⟩
  next target found =>
    obtain ⟨⟨reply, outside⟩, -, result⟩ :=
      Option.bind_eq_some_iff.1 exchanged
    cases result
    exact ⟨.push _ _, by rw [found]; rfl⟩

theorem selected_assigned {trans : Payload} {data : ℕ → Byte} {spi : Spi δ}
    {register : Register} (other : .csid ≠ register) :
    (spi.assigned trans data register).selected = spi.selected := by
  unfold selected assigned
  rw [value_setValue_of_ne other]
  rfl

/-- An access takes a turn at the queue, and the guest gets what is popped. -/
theorem Accessed.turns {trans : Payload} {data read : ℕ → Byte}
    {spi later : Spi δ} {turn : Queueing.Turn Byte}
    (accessed : Accessed trans data spi read turn later)
    (orderly : spi.Orderly (.access trans data : Event ε)) :
    Queueing.Turns queueSize spi.rxqueue turn later.rxqueue ∧
      answer trans read = turn.popped ∧
      (spi.HasRoom (.access trans data : Event ε) ↔
        Queueing.Room queueSize spi.rxqueue turn) := by
  cases accessed with
  | receive reads found =>
      obtain ⟨address, whole, isSelected⟩ := orderly reads found
      have quiet : spi.HasRoom (.access trans data : Event ε) :=
        fun writes => absurd (reads.symm.trans writes) (by decide)
      obtain ⟨target, connected⟩ := Option.isSome_iff_exists.1 isSelected
      rw [answer_readData reads address whole]
      cases waiting : spi.rxqueue with
      | nil =>
          have popped : spi.beforeRead =
              (none, spi.setValue .rxdata emptyFlag) := by
            rw [beforeRead, connected]
            simp only [waiting]
          rw [popped, value_setValue]
          refine ⟨?_, rfl, iff_of_true quiet fun pushes => by cases pushes⟩
          change Queueing.Turns queueSize [] {} spi.rxqueue
          rw [waiting]
          exact .idle []
      | cons first rest =>
          have popped : spi.beforeRead = (some first,
              { spi.setValue .rxdata (first.setWidth 32) with
                rxqueue := rest }) := by
            rw [beforeRead, connected]
            simp only [waiting]
          have kept : (spi.beforeRead.2).value .rxdata = first.setWidth 32 := by
            rw [popped]
            exact value_setValue spi .rxdata _
          rw [kept, popped, byte_setWidth]
          refine ⟨.pop first rest, ?_, iff_of_true quiet fun pushes => by
            cases pushes⟩
          have clear : (first.setWidth 32 : TlmMap.Word).getLsbD 31 = false := by
            simp
          rw [clear]
          rfl
  | @read register reads found other =>
      refine ⟨.idle _, if_neg ?_, iff_of_true ?_ fun pushes => by cases pushes⟩
      · rintro ⟨-, address⟩
        have start : trans.address % 4 = 0 := by
          rw [address]
          rfl
        have clamped := find_eq found
        rw [start, address] at clamped
        exact other (addr_injective (clamped.trans (BitVec.sub_zero _)))
      · exact fun writes => absurd (reads.symm.trans writes) (by decide)
  | @transmit pushed later writes found exchanged =>
      obtain ⟨turns, selects⟩ := afterWrite_turns exchanged
      rw [selected_assigned (by decide)] at selects
      refine ⟨turns, if_neg fun reads => ?_, ?_⟩
      · exact absurd (writes.symm.trans reads.1) (by decide)
      · rw [HasRoom, Queueing.Room, selects]
        exact ⟨fun room => room writes found, fun room _ _ => room⟩
  | @write register writes found other =>
      refine ⟨.idle _, if_neg fun reads => ?_, iff_of_true ?_ fun pushes => by
        cases pushes⟩
      · exact absurd (writes.symm.trans reads.1) (by decide)
      · intro _ transmits
        rw [found] at transmits
        have same := congrArg RegMapping.vptr (Option.some.inj transmits)
        exact absurd (vptr_injective same) other

/-! ## The channel -/

section Channel

variable {happens : ε → δ → δ} {events : List (Event ε)} {spi last : Spi δ}
  {answers replies : List Byte}

theorem run_access {payload : Payload} {data : ℕ → Byte}
    (ran : run happens (.access payload data :: events) spi =
      .ok (answers, replies, last)) :
    ∃ read turn next others rest,
      spi.transport payload data = .ok (read, turn, next) ∧
      run happens events next = .ok (others, rest, last) ∧
      answers = (answer payload read).toList ++ others ∧
      replies = turn.pushed.toList ++ rest := by
  rw [run] at ran
  cases transported : spi.transport payload data with
  | error fault =>
      rw [transported] at ran
      cases ran
  | ok result =>
      obtain ⟨read, turn, next⟩ := result
      rw [transported] at ran
      change (do
        let (answers, replies, last) ← run happens events next
        return ((answer payload read).toList ++ answers,
          turn.pushed.toList ++ replies, last)) = _ at ran
      cases remaining : run happens events next with
      | error fault =>
          rw [remaining] at ran
          cases ran
      | ok result =>
          obtain ⟨others, rest, final⟩ := result
          rw [remaining] at ran
          cases ran
          exact ⟨read, turn, next, others, rest, rfl, remaining, rfl, rfl⟩

theorem everyEvent_access {meets : Spi δ → Event ε → Prop} {payload : Payload}
    {data read : ℕ → Byte} {turn : Queueing.Turn Byte} {next : Spi δ}
    (transported : spi.transport payload data = .ok (read, turn, next)) :
    EveryEvent (Steps happens) meets (.access payload data :: events) spi ↔
      meets spi (.access payload data) ∧
        EveryEvent (Steps happens) meets events next := by
  refine and_congr_right fun _ => ⟨fun every => every next ⟨read, turn,
    transported⟩, ?_⟩
  rintro every later ⟨_, _, again⟩
  rw [transported] at again
  cases again
  exact every

theorem everyEvent_outside {meets : Spi δ → Event ε → Prop} {event : ε} :
    EveryEvent (Steps happens) meets (.outside event :: events) spi ↔
      meets spi (.outside event) ∧ EveryEvent (Steps happens) meets events
        { spi with outside := happens event spi.outside } := by
  refine and_congr_right fun _ => ⟨fun every => every _ rfl, ?_⟩
  rintro every later rfl
  exact every

/-- A run takes turns at the queue. -/
theorem exists_runs
    (ran : run happens events spi = .ok (answers, replies, last))
    (orderly : EveryEvent (Steps happens) Orderly events spi) :
    ∃ turns, Queueing.Runs queueSize spi.rxqueue turns last.rxqueue ∧
      Queueing.popped turns = answers ∧ Queueing.pushed turns = replies ∧
      (EveryEvent (Steps happens) HasRoom events spi ↔
        EveryEvent (Queueing.Turns queueSize) (Queueing.Room queueSize) turns
          spi.rxqueue) := by
  induction events generalizing spi answers replies with
  | nil =>
      cases ran
      exact ⟨[], .nil _, rfl, rfl, Iff.rfl⟩
  | cons event events inductionHypothesis =>
      cases event with
      | outside event =>
          obtain ⟨turns, runs, popped, pushed, room⟩ :=
            inductionHypothesis ran (everyEvent_outside.1 orderly).2
          refine ⟨turns, runs, popped, pushed, ?_⟩
          rw [everyEvent_outside]
          exact (and_iff_right trivial).trans room
      | access payload data =>
          obtain ⟨read, turn, next, others, rest, transported, remaining, rfl,
            rfl⟩ := run_access ran
          rw [everyEvent_access transported] at orderly
          obtain ⟨turned, answered, room⟩ :=
            (accessed_of_transport transported).turns orderly.1
          obtain ⟨turns, runs, popped, pushed, rooms⟩ :=
            inductionHypothesis remaining orderly.2
          refine ⟨turn :: turns, .cons turned runs, ?_, ?_, ?_⟩
          · rw [Queueing.popped_cons, popped, answered]
          · rw [Queueing.pushed_cons, pushed]
          · rw [everyEvent_access transported, EveryEvent, room, rooms]
            refine and_congr_right fun _ => ⟨fun every later again => ?_,
              fun every => every next.rxqueue turned⟩
            rw [turned.unique again]
            exact every

/-- There is room for what the targets return if all of it fits. -/
theorem hasRoom_of_length
    (ran : run happens events spi = .ok (answers, replies, last))
    (orderly : EveryEvent (Steps happens) Orderly events spi)
    (few : spi.rxqueue.length + replies.length ≤ queueSize) :
    EveryEvent (Steps happens) HasRoom events spi := by
  obtain ⟨turns, runs, rfl, rfl, room⟩ := exists_runs ran orderly
  exact room.2 (runs.room_of_length few)

theorem answers_sublist
    (ran : run happens events spi = .ok (answers, replies, last))
    (orderly : EveryEvent (Steps happens) Orderly events spi) :
    (answers ++ last.rxqueue).Sublist (spi.rxqueue ++ replies) := by
  obtain ⟨turns, runs, rfl, rfl, -⟩ := exists_runs ran orderly
  exact runs.sublist

theorem answers_eq_iff
    (ran : run happens events spi = .ok (answers, replies, last))
    (orderly : EveryEvent (Steps happens) Orderly events spi) :
    answers ++ last.rxqueue = spi.rxqueue ++ replies ↔
      EveryEvent (Steps happens) HasRoom events spi := by
  obtain ⟨turns, runs, rfl, rfl, room⟩ := exists_runs ran orderly
  exact runs.eq_iff.trans room.symm

/-- What the guest takes, followed by what it has left, is what the targets
returned but for what was dropped; nothing is dropped exactly if there always is
room. -/
theorem answers_append_rxqueue
    (ran : run happens events spi = .ok (answers, replies, last))
    (orderly : EveryEvent (Steps happens) Orderly events spi) :
    (answers ++ last.rxqueue).Sublist (spi.rxqueue ++ replies) ∧
      (answers ++ last.rxqueue = spi.rxqueue ++ replies ↔
        EveryEvent (Steps happens) HasRoom events spi) :=
  ⟨answers_sublist ran orderly, answers_eq_iff ran orderly⟩

end Channel

/-- The next byte is the last one's successor. -/
def countUp : WriteFunction Byte := fun byte outside => some (outside, outside + byte)

/-- A controller with one target, selected. -/
def counting : Spi Byte := (init 5).connect 0 countUp

/-- Two bytes are written, two are read. -/
def exchangeTwo : List (Event Empty) :=
  [.access ⟨.write, 0x48, 4⟩ fun _ => 1, .access ⟨.write, 0x48, 1⟩ fun _ => 1,
    .access ⟨.read, 0x4C, 4⟩ fun _ => 0, .access ⟨.read, 0x4C, 4⟩ fun _ => 0]

theorem answers_append_rxqueue_exchangeTwo :
    ∃ last : Spi Byte,
      ([5, 6] ++ last.rxqueue).Sublist ([] ++ [5, 6]) ∧
        ([5, 6] ++ last.rxqueue = [] ++ [5, 6] ↔
          EveryEvent (Steps fun (_ : Empty) outside => outside) HasRoom
            exchangeTwo counting) := by
  have ran : ∃ last, run (fun (_ : Empty) outside => outside) exchangeTwo
      counting = .ok ([5, 6], [5, 6], last) := ⟨_, rfl⟩
  obtain ⟨last, ran⟩ := ran
  refine ⟨last, answers_append_rxqueue ran ?_⟩
  unfold exchangeTwo
  refine (everyEvent_access rfl).2 (And.intro (fun never => by cases never) ?_)
  refine (everyEvent_access rfl).2 (And.intro (fun never => by cases never) ?_)
  refine (everyEvent_access rfl).2 (And.intro (fun _ _ => ⟨rfl, rfl, rfl⟩) ?_)
  exact (everyEvent_access rfl).2 (And.intro (fun _ _ => ⟨rfl, rfl, rfl⟩) trivial)

end Spi

end Hifive

end RiscvVp
