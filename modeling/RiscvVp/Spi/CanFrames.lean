import Mathlib
import RiscvVp.Can.Fidelity
import RiscvVp.Spi.Channel

/-!
# CAN frames over SPI

`hifive_main.cpp` connects the CAN controller to a chip select of the SPI
controller.  What the guest writes to `txdata` while that one is selected is what
the CAN controller is given, and a frame that waits there is read from `rxdata`.
-/

namespace RiscvVp

namespace Hifive

namespace Spi

attribute [local instance] Mcp2515.neZero_two

open Bits TlmMap Trace
open Mcp2515 (Can CanFrame)

/-- What happens outside: frames arrive. -/
def arrive (frame : CanFrame) (can : Can) : Can :=
  can.enqueueIncomingCanFrame frame

/-- The byte that an access sends, when `txdata` is clear. -/
def sentByte (payload : Payload) (data : ℕ → Byte) : Option Byte :=
  if payload.command = .write ∧
      bank.find payload.address = some Register.txdata.mapping then
    some ((written payload 0 data).setWidth 8)
  else none

/-- What the CAN controller sees of a run. -/
def inputs : List (Event CanFrame) → List Mcp2515.Event
  | [] => []
  | .access payload data :: events =>
      ((sentByte payload data).map .byte).toList ++ inputs events
  | .outside frame :: events => .frame frame :: inputs events

/-- The CAN controller is connected and selected, and `txdata` is clear. -/
structure Attached (cs : TlmMap.Word) (spi : Spi Can) : Prop where
  csid : spi.value .csid = cs
  connected : spi.targets.lookup cs = some Can.write
  clear : spi.value .txdata = 0

/-- The guest does not select another target. -/
def Stays : Event CanFrame → Prop
  | .access payload _ => payload.command = .write →
      bank.find payload.address ≠ some Register.csid.mapping
  | .outside _ => True

/-- `rxdata` is read as a whole. -/
def ReadsWhole : Event CanFrame → Prop
  | .access payload _ => payload.command = .read →
      bank.find payload.address = some Register.rxdata.mapping →
        payload.address = Register.rxdata.addr ∧ payload.dataLength = 4
  | .outside _ => True

variable {cs : TlmMap.Word} {spi later last : Spi Can} {payload : Payload}
  {data read : ℕ → Byte} {turn : Queueing.Turn Byte}
  {events : List (Event CanFrame)} {answers replies : List Byte}

theorem Attached.selected (attached : spi.Attached cs) :
    spi.selected = some Can.write := by
  rw [Spi.selected, attached.csid, attached.connected]

theorem Attached.setValue (attached : spi.Attached cs) {register : Register}
    (apart : register ≠ .csid) (word : TlmMap.Word)
    (clear : register = .txdata → word = 0) :
    (spi.setValue register word).Attached cs where
  csid := (value_setValue_of_ne apart.symm spi word).trans attached.csid
  connected := attached.connected
  clear := by
    by_cases transmits : register = .txdata
    · subst transmits
      exact (value_setValue spi .txdata word).trans (clear rfl)
    · exact (value_setValue_of_ne (Ne.symm transmits) spi word).trans
        attached.clear

theorem Attached.outside (attached : spi.Attached cs) (can : Can)
    (queue : List Byte) :
    { spi with rxqueue := queue, outside := can }.Attached cs :=
  ⟨attached.csid, attached.connected, attached.clear⟩

theorem find_unique {address : BitVec 64} {left right : Register}
    (found : bank.find address = some left.mapping)
    (again : bank.find address = some right.mapping) : left = right :=
  vptr_injective (congrArg RegMapping.vptr
    (Option.some.inj (found.symm.trans again)))

theorem sentByte_of_read (reads : payload.command = .read) :
    sentByte payload data = none := by
  rw [sentByte, if_neg]
  intro writes
  exact absurd (reads.symm.trans writes.1) (by decide)

/-- What an access sends is what the CAN controller gets, and its reply is what
is pushed. -/
theorem Attached.accessed (attached : spi.Attached cs)
    (stays : Stays (.access payload data))
    (accessed : Accessed payload data spi read turn later) :
    later.Attached cs ∧
      match sentByte payload data with
      | none => turn.pushed = none ∧ later.outside = spi.outside
      | some byte => ∃ reply, turn.pushed = some reply ∧
          spi.outside.write byte = some (reply, later.outside) := by
  cases accessed with
  | receive reads found =>
      rw [sentByte_of_read reads]
      refine ⟨?_, rfl, ?_⟩
      · unfold beforeRead
        rw [attached.selected]
        dsimp only
        split
        · exact attached.setValue (by decide) _ fun never => by cases never
        · exact (attached.setValue (by decide) _ fun never => by
            cases never).outside _ _
      · unfold beforeRead
        rw [attached.selected]
        dsimp only
        split <;> rfl
  | read reads found other =>
      rw [sentByte_of_read reads]
      exact ⟨attached, rfl, rfl⟩
  | @transmit pushed later writes found exchanged =>
      have sent : sentByte payload data =
          some ((written payload 0 data).setWidth 8) := if_pos ⟨writes, found⟩
      have chosen : (spi.assigned payload data .txdata).selected =
          some Can.write := by
        rw [selected_assigned (by decide)]
        exact attached.selected
      rw [afterWrite, chosen] at exchanged
      obtain ⟨⟨reply, can⟩, wrote, result⟩ :=
        Option.bind_eq_some_iff.1 exchanged
      cases result
      rw [assigned, value_setValue, attached.clear] at wrote
      rw [sent]
      refine ⟨?_, reply, rfl, wrote⟩
      refine ⟨?_, attached.connected, rfl⟩
      rw [← attached.csid]
      rfl
  | @write register writes found other =>
      have apart : register ≠ .csid := by
        rintro rfl
        exact stays writes found
      have silent : sentByte payload data = none := by
        rw [sentByte, if_neg]
        exact fun transmits => other (find_unique found transmits.2)
      rw [silent]
      exact ⟨attached.setValue apart _ fun same => absurd same other, rfl, rfl⟩

/-- The target stays selected. -/
theorem Attached.orderly (attached : spi.Attached cs)
    (stays : ∀ event ∈ events, Stays event)
    (whole : ∀ event ∈ events, ReadsWhole event) :
    EveryEvent (Steps arrive) Orderly events spi := by
  induction events generalizing spi with
  | nil => trivial
  | cons event events inductionHypothesis =>
      obtain ⟨staysNow, staysLater⟩ := List.forall_mem_cons.1 stays
      obtain ⟨wholeNow, wholeLater⟩ := List.forall_mem_cons.1 whole
      cases event with
      | outside frame =>
          rw [everyEvent_outside]
          exact ⟨trivial, inductionHypothesis
            (attached.outside _ spi.rxqueue) staysLater wholeLater⟩
      | access payload data =>
          constructor
          · intro reads found
            obtain ⟨address, all⟩ := wholeNow reads found
            exact ⟨address, all, by rw [attached.selected]; rfl⟩
          · rintro later ⟨read, turn, transported⟩
            exact inductionHypothesis (attached.accessed staysNow
              (accessed_of_transport transported)).1 staysLater wholeLater

/-- The CAN controller runs on what the guest sends, and its replies are
pushed. -/
theorem Attached.run_outside (attached : spi.Attached cs)
    (stays : ∀ event ∈ events, Stays event)
    (ran : run arrive events spi = .ok (answers, replies, last)) :
    spi.outside.run (inputs events) = some (replies, last.outside) := by
  induction events generalizing spi answers replies with
  | nil =>
      cases ran
      rfl
  | cons event events inductionHypothesis =>
      have later := fun event member =>
        stays event (List.mem_cons_of_mem _ member)
      cases event with
      | outside frame =>
          exact inductionHypothesis
            (attached.outside (arrive frame spi.outside) spi.rxqueue) later ran
      | access payload data =>
          obtain ⟨read, turn, next, others, rest, transported, remaining, rfl,
            rfl⟩ := run_access ran
          obtain ⟨keeps, exchanged⟩ := attached.accessed
            (stays _ List.mem_cons_self) (accessed_of_transport transported)
          have runs := inductionHypothesis keeps later remaining
          rw [inputs]
          cases sent : sentByte payload data with
          | none =>
              rw [sent] at exchanged
              obtain ⟨silent, same⟩ := exchanged
              rw [silent, ← same]
              exact runs
          | some byte =>
              rw [sent] at exchanged
              obtain ⟨reply, pushed, wrote⟩ := exchanged
              rw [pushed]
              change (spi.outside.run (.byte byte :: inputs events)) = _
              rw [Can.run, wrote, Option.bind_eq_bind, Option.bind_some]
              dsimp only
              rw [runs]
              rfl

end Spi

end Hifive

namespace Mcp2515.Can

attribute [local instance] neZero_two

variable {no : Fin 2} {frame : CanFrame} {can : Can}

/-- Frames may arrive before the command that reads a buffer. -/
theorem run_reading {events : List Event} {dummies : List Byte}
    (idle : can.state = .init) (rest : can.rxPtr = 0)
    (pending : can.Pending no frame)
    (asks : bytesOf events = mcpReadRx no :: dummies)
    (all : dummies.length = 5 + frame.canDlc.toNat) :
    ∃ last, can.run events = some (0 :: bytesFrom frame 0, last) := by
  induction events generalizing can with
  | nil => cases asks
  | cons event events inductionHypothesis =>
      cases event with
      | byte byte =>
          injection asks with same others
          subst same
          exact run_mcpReadRx idle rest pending
            ((congrArg List.length others).trans all)
      | frame other =>
          obtain ⟨state, ptr⟩ := state_enqueue can other
          exact inductionHypothesis (state.trans idle) (ptr.trans rest)
            (pending.enqueue other) asks

end Mcp2515.Can

namespace Hifive

namespace Spi

attribute [local instance] Mcp2515.neZero_two

open TlmMap Trace
open Mcp2515 (Can CanFrame Identifier)

variable {cs : TlmMap.Word} {spi last : Spi Can} {events : List (Event CanFrame)}
  {answers replies dummies : List Byte} {no : Fin 2} {frame : CanFrame}
  {identifier : Identifier}

/-- A standard frame that waits in a receive buffer is read over SPI, in whatever
portions the guest writes and reads, and whatever frames arrive meanwhile. -/
theorem reads_frame (attached : spi.Attached cs) (empty : spi.rxqueue = [])
    (idle : spi.outside.state = .init) (rest : spi.outside.rxPtr = 0)
    (pending : spi.outside.Pending no frame)
    (identified : frame.canId = identifier.canId)
    (standard : identifier.isExtended = false)
    (stays : ∀ event ∈ events, Stays event)
    (whole : ∀ event ∈ events, ReadsWhole event)
    (asks : Mcp2515.bytesOf (inputs events) = Can.mcpReadRx no :: dummies)
    (all : dummies.length = 5 + frame.canDlc.toNat)
    (ran : run arrive events spi = .ok (answers, replies, last)) :
    ∃ read, Can.Carries identifier frame read ∧
      answers ++ last.rxqueue = 0 :: read := by
  have outside := attached.run_outside stays ran
  obtain ⟨can, reading⟩ := Can.run_reading idle rest pending asks all
  rw [reading] at outside
  obtain ⟨rfl, -⟩ := Prod.mk.inj (Option.some.inj outside)
  have orderly := attached.orderly stays whole
  -- The queue never holds more than the longest frame and its command.
  have room : EveryEvent (Steps arrive) HasRoom events spi := by
    apply hasRoom_of_length ran orderly
    have fits := frame.fits
    have size : queueSize = 16 := rfl
    rw [empty, List.length_nil, List.length_cons, Can.bytesFrom, List.length_map,
      List.length_range', size]
    omega
  have carried := (answers_eq_iff ran orderly).2 room
  rw [empty, List.nil_append] at carried
  exact ⟨_, (Can.carries_bytesFrom_iff identified).2 standard, carried⟩

/-- A frame of one byte. -/
def oneByteFrame (identifier : BitVec 11) (byte : Byte) : CanFrame where
  canId := (Identifier.standard identifier).canId
  canDlc := 1
  data _ := byte
  fits := Nat.succ_le_succ (Nat.zero_le 7)

/-- A frame waits, and the CAN controller is connected to the first chip
select. -/
def frameWaiting : Spi Can :=
  (init (arrive (oneByteFrame 0x123 0xA5) (.boot (fun _ => 0)
    (fun _ => ⟨fun _ => 0⟩) (fun _ => ⟨fun _ => 0⟩)))).connect 0 Can.write

/-- The bytes are written to `txdata`. -/
def transmit (bytes : List Byte) : List (Event CanFrame) :=
  bytes.map fun byte => .access ⟨.write, 0x48, 1⟩ fun _ => byte

/-- `rxdata` is read. -/
def receive (count : ℕ) : List (Event CanFrame) :=
  List.replicate count (.access ⟨.read, 0x4C, 4⟩ fun _ => 0)

/-- Another frame arrives while the frame is read. -/
def arrivesMeanwhile : List (Event CanFrame) :=
  transmit [Mcp2515.mcpReadRx0, 0, 0] ++ receive 2 ++
    .outside (oneByteFrame 0x7FF 0x5A) :: (transmit [0, 0, 0, 0] ++ receive 5)

theorem attached_frameWaiting : frameWaiting.Attached 0 :=
  ⟨rfl, rfl, rfl⟩

theorem guest_transmit (bytes : List Byte) :
    ∀ event ∈ transmit bytes, Stays event ∧ ReadsWhole event := by
  intro event member
  obtain ⟨byte, -, rfl⟩ := List.mem_map.1 member
  exact ⟨fun _ found => absurd found (by decide), fun reads => by cases reads⟩

theorem guest_receive (count : ℕ) :
    ∀ event ∈ receive count, Stays event ∧ ReadsWhole event := by
  intro event member
  obtain rfl := List.eq_of_mem_replicate member
  exact ⟨fun writes => absurd writes (by decide), fun _ _ => ⟨rfl, rfl⟩⟩

theorem guest_arrivesMeanwhile :
    ∀ event ∈ arrivesMeanwhile, Stays event ∧ ReadsWhole event := by
  simp only [arrivesMeanwhile, List.forall_mem_append, List.forall_mem_cons]
  exact ⟨⟨guest_transmit _, guest_receive _⟩, ⟨trivial, trivial⟩,
    guest_transmit _, guest_receive _⟩

theorem reads_frame_arrivesMeanwhile :
    ∃ (last : Spi Can) (read : List Byte),
      Can.Carries (.standard 0x123) (oneByteFrame 0x123 0xA5) read ∧
        [0, 0x24, 0x60, 0, 0, 1, 0xA5] ++ last.rxqueue = 0 :: read := by
  have pending : frameWaiting.outside.Pending 0 (oneByteFrame 0x123 0xA5) :=
    Can.pending_fill 0 (oneByteFrame 0x123 0xA5) _
  exact ⟨_, @reads_frame 0 frameWaiting _ arrivesMeanwhile
    [0, 0x24, 0x60, 0, 0, 1, 0xA5] _ [0, 0, 0, 0, 0, 0] 0
    (oneByteFrame 0x123 0xA5) (.standard 0x123) attached_frameWaiting rfl rfl rfl
    pending rfl rfl (fun event member => (guest_arrivesMeanwhile event member).1)
    (fun event member => (guest_arrivesMeanwhile event member).2) rfl rfl rfl⟩

end Spi

end Hifive

end RiscvVp
