import Mathlib
import RiscvVp.Can.Commands
import RiscvVp.Can.Identifiers

/-!
# Frames through the CAN controller

A frame that arrives waits in a receive buffer until the guest reads it, and one
that the guest loads leaves when it is sent.  Of extended identifiers neither
direction keeps the flag.
-/

namespace RiscvVp

namespace Mcp2515

attribute [local instance] neZero_two neZero_three neZero_four

open Trace

def bytesOf (events : List Event) : List Byte :=
  events.filterMap fun event =>
    match event with
    | .byte byte => some byte
    | .frame _ => none

namespace Can

/-- A run, with what the guest gets for its bytes. -/
def run : List Event → Can → Option (List Byte × Can)
  | [], can => some ([], can)
  | .byte byte :: events, can => do
      let (ret, next) ← can.write byte
      let (rets, last) ← next.run events
      some (ret :: rets, last)
  | .frame frame :: events, can => (can.enqueueIncomingCanFrame frame).run events

def Steps (can : Can) (event : Event) (later : Can) : Prop :=
  can.step event = some later

/-- The receive buffer that the next frame is put in. -/
def slot (can : Can) : Option (Fin 2) :=
  if !can.status.getLsbD 0 then some 0
  else if !can.status.getLsbD 1 then some 1
  else none

/-- A frame waits in a receive buffer. -/
structure Pending (no : Fin 2) (frame : CanFrame) (can : Can) : Prop where
  buffer : can.rxBuf no = received frame
  full : can.status.getLsbD no = true

variable {no : Fin 2} {frame : CanFrame} {can later : Can}

/-- `empty buffer` -/
def fill (no : Fin 2) (frame : CanFrame) (can : Can) : Can :=
  { can with
    rxBuf := Function.update can.rxBuf no (received frame)
    status := can.status ||| BitVec.twoPow 8 no }

theorem enqueue_of_slot (free : can.slot = some no) (frame : CanFrame) :
    can.enqueueIncomingCanFrame frame = can.fill no frame := by
  unfold slot at free
  unfold enqueueIncomingCanFrame
  split at free
  case isTrue first =>
    cases free
    exact if_pos first
  case isFalse full =>
    split at free
    case isTrue second =>
      cases free
      exact (if_neg full).trans (if_pos second)
    case isFalse => cases free

theorem enqueue_of_full (full : can.slot = none) (frame : CanFrame) :
    can.enqueueIncomingCanFrame frame = can := by
  unfold slot at full
  unfold enqueueIncomingCanFrame
  split at full
  case isTrue => cases full
  case isFalse taken =>
    split at full
    case isTrue => cases full
    case isFalse => simp_all

theorem pending_fill (no : Fin 2) (frame : CanFrame) (can : Can) :
    (can.fill no frame).Pending no frame := by
  have bit : no.val < 8 := no.isLt.trans (by decide)
  exact ⟨by simp [fill], by simp [fill, bit]⟩

/-- A buffer that is free holds no frame. -/
theorem slot_free (free : can.slot = some no) :
    can.status.getLsbD no = false := by
  unfold slot at free
  split at free
  case isTrue first =>
    cases free
    simpa using first
  case isFalse =>
    split at free
    case isTrue second =>
      cases free
      simpa using second
    case isFalse => cases free

theorem Pending.fill (pending : can.Pending no frame) {slot : Fin 2}
    (apart : no ≠ slot) (other : CanFrame) :
    (can.fill slot other).Pending no frame := by
  refine ⟨(Function.update_of_ne apart _ _).trans pending.buffer, ?_⟩
  have kept := pending.full
  simp only [Can.fill, BitVec.getLsbD_or, kept, Bool.true_or]

/-- Another frame is put in another buffer. -/
theorem Pending.enqueue (pending : can.Pending no frame) (other : CanFrame) :
    (can.enqueueIncomingCanFrame other).Pending no frame := by
  cases free : can.slot with
  | none =>
      rw [enqueue_of_full free]
      exact pending
  | some slot =>
      rw [enqueue_of_slot free]
      refine pending.fill ?_ other
      rintro rfl
      exact absurd (slot_free free) (by simp [pending.full])

theorem state_enqueue (can : Can) (frame : CanFrame) :
    (can.enqueueIncomingCanFrame frame).state = can.state ∧
      (can.enqueueIncomingCanFrame frame).rxPtr = can.rxPtr := by
  obtain ⟨rxBuf, status, enqueued⟩ := Session.enqueue_eq frame can
  rw [enqueued]
  exact ⟨rfl, rfl⟩

/-! ## Waiting -/

/-- What a byte does that is not read from the receive buffers. -/
structure SameRx (can later : Can) : Prop where
  rxBuf : later.rxBuf = can.rxBuf
  status : later.status = can.status

theorem sameRx_command (byte : Byte) (can : Can) :
    can.SameRx (can.command byte) := by
  rw [Session.command_eq]
  exact ⟨rfl, rfl⟩

theorem sameRx_setRegister {index : ℕ} {byte : Byte}
    (set : can.setRegister index byte = some later) : can.SameRx later := by
  unfold setRegister at set
  split at set
  · cases set
    exact ⟨rfl, rfl⟩
  · cases set

variable {byte : Byte} {result : Byte × Can}

theorem sameRx_readRegister (read : can.readRegister byte = some result) :
    can.SameRx result.2 := by
  unfold readRegister at read
  split at read
  · cases read
    exact ⟨rfl, rfl⟩
  · split at read
    · cases read
      have same := sameRx_command byte { can with readSelected := -1 }
      exact ⟨same.rxBuf, same.status⟩
    · split at read
      · cases read
        exact ⟨rfl, rfl⟩
      · obtain ⟨value, _, result⟩ := Option.bind_eq_some_iff.mp read
        cases result
        exact ⟨rfl, rfl⟩

theorem sameRx_writeRegister (wrote : can.writeRegister byte = some result) :
    can.SameRx result.2 := by
  unfold writeRegister at wrote
  split at wrote
  · cases wrote
    exact ⟨rfl, rfl⟩
  · split at wrote
    · cases wrote
      exact ⟨rfl, rfl⟩
    · obtain ⟨written, set, result⟩ := Option.bind_eq_some_iff.mp wrote
      cases result
      have same := sameRx_setRegister set
      exact ⟨same.rxBuf, same.status⟩

theorem sameRx_modifyRegister (wrote : can.modifyRegister byte = some result) :
    can.SameRx result.2 := by
  unfold modifyRegister at wrote
  split at wrote
  · cases wrote
    exact ⟨rfl, rfl⟩
  · cases wrote
    exact ⟨rfl, rfl⟩
  · obtain ⟨value, _, rest⟩ := Option.bind_eq_some_iff.mp wrote
    obtain ⟨modified, set, result⟩ := Option.bind_eq_some_iff.mp rest
    cases result
    have same := sameRx_setRegister set
    exact ⟨same.rxBuf, same.status⟩

theorem sameRx_loadTxBuf {no : Fin 3}
    (loaded : can.loadTxBuf no byte = some result) : can.SameRx result.2 := by
  unfold loadTxBuf at loaded
  split at loaded
  · obtain ⟨frame, _, rest⟩ := Option.bind_eq_some_iff.mp loaded
    split at rest <;>
    · cases rest
      exact ⟨rfl, rfl⟩
  · cases loaded
    exact ⟨rfl, rfl⟩
  · obtain ⟨frame, _, rest⟩ := Option.bind_eq_some_iff.mp loaded
    split at rest <;>
    · cases rest
      exact ⟨rfl, rfl⟩

theorem sameRx_sendTxBuf {no : ℕ}
    (sends : can.sendTxBuf no byte = some result) : can.SameRx result.2 := by
  unfold sendTxBuf at sends
  by_cases inside : (if no = 4 then 0 else no) < 3
  · rw [dif_pos inside] at sends
    obtain ⟨frame, _, rest⟩ := Option.bind_eq_some_iff.mp sends
    obtain ⟨cleared, set, result⟩ := Option.bind_eq_some_iff.mp rest
    cases result
    have same := sameRx_setRegister set
    exact ⟨same.rxBuf, same.status⟩
  · rw [dif_neg inside] at sends
    cases sends

/-- Only when its own buffer is read out does a frame no longer wait. -/
theorem Pending.write (pending : can.Pending no frame)
    (elsewhere : can.state ≠ .readRx no)
    (written : can.write byte = some result) : result.2.Pending no frame := by
  have kept : can.SameRx result.2 → result.2.Pending no frame := fun same =>
    ⟨(congrFun same.rxBuf no).trans pending.buffer, by
      rw [same.status, pending.full]⟩
  unfold Can.write at written
  split at written
  · cases written
    exact kept (sameRx_command byte can)
  · exact kept (sameRx_readRegister written)
  · exact kept (sameRx_writeRegister written)
  · exact kept (sameRx_modifyRegister written)
  · exact kept (sameRx_loadTxBuf written)
  · exact kept (sameRx_sendTxBuf written)
  · exact kept (sameRx_sendTxBuf written)
  case h_8 other here =>
    have apart : no.val ≠ other.val := by
      intro same
      exact elsewhere (here.trans (congrArg State.readRx (Fin.ext same.symm)))
    unfold readRxBuf at written
    obtain ⟨ret, _, rest⟩ := Option.bind_eq_some_iff.mp written
    dsimp only at rest
    split at rest
    · cases rest
      have bit : no.val < 8 := no.isLt.trans (by decide)
      have full := pending.full
      refine ⟨pending.buffer, ?_⟩
      simp only [BitVec.getLsbD_and, BitVec.getLsbD_not, BitVec.getLsbD_twoPow,
        full, bit]
      simp [apart.symm]
    · cases rest
      exact ⟨pending.buffer, pending.full⟩
  · cases written
    exact ⟨pending.buffer, pending.full⟩

theorem Pending.kept (pending : can.Pending no frame)
    (elsewhere : can.state ≠ .readRx no) {event : Event}
    (stepped : can.step event = some later) : later.Pending no frame := by
  cases event with
  | byte byte =>
      obtain ⟨result, written, rfl⟩ := Option.map_eq_some_iff.mp stepped
      exact pending.write elsewhere written
  | frame other =>
      cases stepped
      exact pending.enqueue other

/-- Until its buffer is read, a frame waits. -/
theorem Pending.wait {events : List Event}
    (elsewhere : EveryEvent Steps (fun can _ => can.state ≠ .readRx no)
      events can)
    (ran : events.foldlM step can = some later)
    (pending : can.Pending no frame) : later.Pending no frame := by
  induction events generalizing can with
  | nil =>
      cases ran
      exact pending
  | cons event events inductionHypothesis =>
      simp only [List.foldlM_cons, Option.bind_eq_bind,
        Option.bind_eq_some_iff] at ran
      obtain ⟨next, stepped, rest⟩ := ran
      exact inductionHypothesis (elsewhere.2 next stepped) rest
        (pending.kept elsewhere.1 stepped)

/-! ## Reading -/

/-- A byte of the buffer of a frame. -/
def rawByte (frame : CanFrame) (index : ℕ) : Byte :=
  if inside : index < 5 + maxPayload then (received frame).raw ⟨index, inside⟩
  else 0

theorem length_received (frame : CanFrame) :
    (received frame).length = frame.canDlc :=
  rfl

/-- The bytes of a frame from a place on, as far as its payload goes. -/
def bytesFrom (frame : CanFrame) (index : ℕ) : List Byte :=
  (List.range' index (5 + frame.canDlc.toNat - index)).map (rawByte frame)

theorem bytesFrom_cons {frame : CanFrame} {index : ℕ}
    (inside : index < 5 + frame.canDlc.toNat) :
    bytesFrom frame index = rawByte frame index :: bytesFrom frame (index + 1) := by
  have more : 5 + frame.canDlc.toNat - index =
      5 + frame.canDlc.toNat - (index + 1) + 1 := by omega
  rw [bytesFrom, more, List.range'_succ, List.map_cons]
  rfl

/-- The next byte of a frame that is being read. -/
theorem write_readRx {index : ℕ} (here : can.state = .readRx no)
    (pointer : can.rxPtr = BitVec.ofNat 8 index)
    (pending : can.Pending no frame)
    (inside : index < 5 + frame.canDlc.toNat) (byte : Byte) :
    ∃ next, can.write byte = some (rawByte frame index, next) ∧
      if index + 1 < 5 + frame.canDlc.toNat then
        next.state = .readRx no ∧ next.rxPtr = BitVec.ofNat 8 (index + 1) ∧
          next.Pending no frame
      else next.state = .init := by
  have fits := frame.fits
  have small : index ≤ 12 := by omega
  have wide : index < 5 + maxPayload := by
    unfold maxPayload
    omega
  have get : (can.rxBuf no).getRaw can.rxPtr.toNat =
      some (rawByte frame index) := by
    rw [pointer, Session.toNat_count small, pending.buffer,
      McpFrame.getRaw, rawByte, dif_pos wide, dif_pos wide]
  have count : (BitVec.ofNat 8 index + 1).toNat = index + 1 := by
    rw [Session.count_succ, BitVec.toNat_ofNat]
    exact Nat.mod_eq_of_lt (by omega)
  have written : can.write byte = can.readRxBuf no byte := by
    rw [write, here]
  rw [readRxBuf, get, Option.bind_eq_bind, Option.bind_some] at written
  dsimp only at written
  rw [pending.buffer, length_received, pointer, count] at written
  by_cases more : index + 1 < 5 + frame.canDlc.toNat
  · rw [if_neg (by omega)] at written
    refine ⟨_, written, ?_⟩
    rw [if_pos more]
    exact ⟨here, Session.count_succ index, pending.buffer, pending.full⟩
  · rw [if_pos (by omega)] at written
    refine ⟨_, written, ?_⟩
    rw [if_neg more]

/-- Frames that arrive get no answer. -/
theorem run_frames {events : List Event} (silent : bytesOf events = [])
    (can : Can) : ∃ last, can.run events = some ([], last) := by
  induction events generalizing can with
  | nil => exact ⟨can, rfl⟩
  | cons event events inductionHypothesis =>
      cases event with
      | byte byte => cases silent
      | frame frame =>
          exact inductionHypothesis silent (can.enqueueIncomingCanFrame frame)

/-- A frame is read to its end, whatever frames arrive meanwhile. -/
theorem run_readRx {events : List Event} {index : ℕ}
    (here : can.state = .readRx no)
    (pointer : can.rxPtr = BitVec.ofNat 8 index)
    (pending : can.Pending no frame)
    (inside : index < 5 + frame.canDlc.toNat)
    (all : (bytesOf events).length = 5 + frame.canDlc.toNat - index) :
    ∃ last, can.run events = some (bytesFrom frame index, last) := by
  induction events generalizing can index with
  | nil =>
      have none : 0 = 5 + frame.canDlc.toNat - index := all
      omega
  | cons event events inductionHypothesis =>
      cases event with
      | frame other =>
          obtain ⟨state, ptr⟩ := state_enqueue can other
          exact inductionHypothesis (state.trans here) (ptr.trans pointer)
            (pending.enqueue other) inside all
      | byte byte =>
          have rest : (bytesOf events).length + 1 =
              5 + frame.canDlc.toNat - index := all
          obtain ⟨next, written, follows⟩ :=
            write_readRx here pointer pending inside byte
          rw [bytesFrom_cons inside, run, written, Option.bind_eq_bind,
            Option.bind_some]
          dsimp only
          by_cases more : index + 1 < 5 + frame.canDlc.toNat
          · rw [if_pos more] at follows
            obtain ⟨state, ptr, still⟩ := follows
            obtain ⟨last, ran⟩ :=
              inductionHypothesis state ptr still more (by omega)
            exact ⟨last, by rw [ran]; rfl⟩
          · have silent : bytesOf events = [] :=
              List.eq_nil_of_length_eq_zero (by omega)
            have ends : bytesFrom frame (index + 1) = [] := by
              rw [bytesFrom, Nat.sub_eq_zero_of_le (Nat.le_of_not_lt more)]
              rfl
            obtain ⟨last, ran⟩ := run_frames silent next
            exact ⟨last, by rw [ran, ends]; rfl⟩

/-- The command that reads a buffer. -/
def mcpReadRx : Fin 2 → Byte
  | 0 => mcpReadRx0
  | 1 => mcpReadRx1

/-- What is read of a frame with an identifier. -/
structure Carries (identifier : Identifier) (frame : CanFrame)
    (read : List Byte) : Prop where
  size : read.length = 5 + frame.canDlc.toNat
  identifier : mcp2515BufToId (fun index => read.getD index 0) =
    (identifier.number, identifier.isExtended)
  length : read.getD 4 0 = frame.canDlc
  payload : ∀ index : Fin 8, index.val < frame.canDlc.toNat →
    read.getD (5 + index) 0 = frame.data index

theorem getD_bytesFrom {index : ℕ} (inside : index < 5 + frame.canDlc.toNat) :
    (bytesFrom frame 0).getD index 0 = rawByte frame index := by
  rw [List.getD_eq_getElem?_getD, bytesFrom, List.getElem?_map,
    List.getElem?_eq_getElem (by simpa using inside)]
  simp

theorem rawByte_id (frame : CanFrame) (index : Fin 4) :
    rawByte frame index =
      mcp2515IdToBuf (frame.canId.setWidth 64) false index := by
  have inside : index.val < 5 + maxPayload := by
    unfold maxPayload
    omega
  rw [rawByte, dif_pos inside]
  exact dif_pos index.isLt

theorem rawByte_payload {frame : CanFrame} {index : Fin 8}
    (within : index.val < frame.canDlc.toNat) :
    rawByte frame (5 + index) = frame.data index := by
  have inside : 5 + index.val < 5 + maxPayload := by
    unfold maxPayload
    omega
  have place : 5 + index.val - 5 = index.val := Nat.add_sub_cancel_left _ _
  rw [rawByte, dif_pos inside, received]
  dsimp only
  rw [dif_neg (by omega), if_neg (by omega)]
  simp only [place, index.isLt, dif_pos, within, if_true]

/-- What a buffer holds carries the frame exactly if its identifier is a
standard one. -/
theorem carries_bytesFrom_iff {identifier : Identifier}
    (identified : frame.canId = identifier.canId) :
    Carries identifier frame (bytesFrom frame 0) ↔
      identifier.isExtended = false := by
  have idField : (fun index : Fin 4 => (bytesFrom frame 0).getD index 0) =
      mcp2515IdToBuf (frame.canId.setWidth 64) false := by
    funext index
    rw [getD_bytesFrom (by omega), rawByte_id]
  constructor
  · intro carries
    have read := congrArg Prod.snd carries.identifier
    rw [idField, (bufToId_of_no_flag (no_flag_of_standard _)).2] at read
    exact read.symm
  · intro standard
    refine ⟨by simp [bytesFrom], ?_, ?_, ?_⟩
    · rw [idField, ← bufToId_toBuf, identified, Identifier.canId, standard,
        Identifier.toBuf, standard]
      simp
    · rw [getD_bytesFrom (by omega)]
      rfl
    · intro index within
      rw [getD_bytesFrom (by omega)]
      exact rawByte_payload within

/-- A frame that is put in a free buffer is read back, whatever happens before
and meanwhile, as long as its buffer is read only then. -/
def ReadsBack (identifier : Identifier) (frame : CanFrame) (can : Can) : Prop :=
  ∀ no, can.slot = some no → ∀ (between : List Event) (later : Can),
    EveryEvent Steps (fun can _ => can.state ≠ .readRx no) between
        (can.enqueueIncomingCanFrame frame) →
      between.foldlM step (can.enqueueIncomingCanFrame frame) = some later →
      later.state = .init → later.rxPtr = 0 →
      ∀ reads, (bytesOf reads).length = 5 + frame.canDlc.toNat →
        ∃ read last, later.run (.byte (mcpReadRx no) :: reads) =
            some (0 :: read, last) ∧ Carries identifier frame read

theorem run_mcpReadRx {events : List Event} (idle : can.state = .init)
    (rest : can.rxPtr = 0) (pending : can.Pending no frame)
    (all : (bytesOf events).length = 5 + frame.canDlc.toNat) :
    ∃ last, can.run (.byte (mcpReadRx no) :: events) =
      some (0 :: bytesFrom frame 0, last) := by
  have written : can.write (mcpReadRx no) =
      some (0, { can with state := .readRx no }) := by
    rw [write, idle]
    dsimp only
    rw [Session.command_eq]
    fin_cases no
    · rfl
    · rfl
  let opened : Can := { can with state := .readRx no }
  have reading : opened.Pending no frame := ⟨pending.buffer, pending.full⟩
  have pointer : opened.rxPtr = BitVec.ofNat 8 0 := rest
  have first : 0 < 5 + frame.canDlc.toNat := by omega
  obtain ⟨last, ran⟩ := run_readRx rfl pointer reading first all
  refine ⟨last, ?_⟩
  rw [run, written, Option.bind_eq_bind, Option.bind_some]
  dsimp only
  rw [ran]
  rfl

/-- The frames that are read back from every state are the standard ones. -/
theorem readsBack_iff {identifier : Identifier}
    (identified : frame.canId = identifier.canId) :
    (∀ can, ReadsBack identifier frame can) ↔
      identifier.isExtended = false := by
  rw [← carries_bytesFrom_iff identified]
  constructor
  · intro every
    let can : Can := .boot (fun _ => 0) (fun _ => ⟨fun _ => 0⟩)
      (fun _ => ⟨fun _ => 0⟩)
    let reads : List Event :=
      List.replicate (5 + frame.canDlc.toNat) (.byte 0)
    have all : (bytesOf reads).length = 5 + frame.canDlc.toNat := by
      simp [reads, bytesOf]
    have free : can.slot = some 0 := by decide
    have pending : (can.enqueueIncomingCanFrame frame).Pending 0 frame := by
      rw [enqueue_of_slot free]
      exact pending_fill 0 frame can
    obtain ⟨idle, rest⟩ := state_enqueue can frame
    obtain ⟨read, last, ran, carries⟩ :=
      every can 0 free [] _ trivial rfl idle rest reads all
    obtain ⟨other, bytes⟩ := run_mcpReadRx idle rest pending all
    have same := ran.symm.trans bytes
    simp only [Option.some.injEq, Prod.mk.injEq, List.cons.injEq,
      true_and] at same
    exact same.1 ▸ carries
  · intro carries can no free between later elsewhere ran idle rest reads all
    have pending : (can.enqueueIncomingCanFrame frame).Pending no frame := by
      rw [enqueue_of_slot free]
      exact pending_fill no frame can
    obtain ⟨last, read⟩ :=
      run_mcpReadRx idle rest (pending.wait elsewhere ran) all
    exact ⟨_, last, read, carries⟩

/-! ## Sending -/

/-- A run that succeeds ends in a state with a property. -/
def Ends (property : Can → Prop) (events : List Event) (can : Can) : Prop :=
  ∃ rets last, can.run events = some (rets, last) ∧ property last

theorem ends_nil {property : Can → Prop} :
    Ends property [] can ↔ property can := by
  constructor
  · rintro ⟨rets, last, ran, holds⟩
    cases ran
    exact holds
  · intro holds
    exact ⟨[], can, rfl, holds⟩

theorem ends_byte {property : Can → Prop} {ret : Byte} {next : Can}
    (written : can.write byte = some (ret, next)) (events : List Event) :
    Ends property (.byte byte :: events) can ↔ Ends property events next := by
  unfold Ends
  rw [run, written, Option.bind_eq_bind, Option.bind_some]
  dsimp only
  constructor
  · rintro ⟨rets, last, ran, holds⟩
    obtain ⟨⟨others, other⟩, rest, result⟩ := Option.bind_eq_some_iff.mp ran
    cases result
    exact ⟨others, other, rest, holds⟩
  · rintro ⟨rets, last, ran, holds⟩
    exact ⟨ret :: rets, last, by rw [ran]; rfl, holds⟩

/-- What of a loaded frame decides how it leaves. -/
structure SameTx (no : Fin 3) (can later : Can) : Prop where
  id : (later.txBuf no).id = (can.txBuf no).id
  length : (later.txBuf no).length = (can.txBuf no).length
  sent : later.sent = can.sent

theorem SameTx.trans {no : Fin 3} {between : Can}
    (first : can.SameTx no between) (second : between.SameTx no later) :
    can.SameTx no later :=
  ⟨second.id.trans first.id, second.length.trans first.length,
    second.sent.trans first.sent⟩

/-- The payload does not overlap the identifier. -/
theorem id_setPayload {before after : McpFrame} {index : ℕ}
    (set : before.setPayload index byte = some after) :
    after.id = before.id := by
  unfold McpFrame.setPayload at set
  split at set
  · cases set
    funext part
    exact Function.update_of_ne (by simp [Fin.ext_iff]; omega) _ _
  · cases set

theorem write_payload {no : Fin 3} {ptr : Byte}
    (here : can.state = .loadTx no) (stage : can.loadCommand = ⟨.payload, ptr⟩)
    (inside : ptr.toNat < maxPayload) (byte : Byte) :
    ∃ next, can.write byte = some (0, next) ∧ can.SameTx no next ∧
      if ptr + 1 = (can.txBuf no).length then next.state = .init
      else next.state = .loadTx no ∧ next.loadCommand = ⟨.payload, ptr + 1⟩ := by
  obtain ⟨frame, set⟩ : ∃ frame, (can.txBuf no).setPayload ptr.toNat byte =
      some frame := ⟨_, dif_pos inside⟩
  have id := id_setPayload set
  have length := Session.length_setPayload set
  have buffer := Session.txBuf_setTxBuf can no frame
  have written : can.write byte = can.loadTxBuf no byte :=
    Session.write_loadTx here
  rw [loadTxBuf, stage] at written
  dsimp only at written
  rw [set, Option.bind_eq_bind, Option.bind_some, length] at written
  by_cases last : ptr + 1 = (can.txBuf no).length
  · rw [if_pos last] at written
    refine ⟨_, written, ⟨?_, ?_, rfl⟩, by rw [if_pos last]⟩
    · rw [← id]
      exact congrArg McpFrame.id buffer
    · rw [← length]
      exact congrArg McpFrame.length buffer
  · rw [if_neg last] at written
    refine ⟨_, written, ⟨?_, ?_, rfl⟩, by rw [if_neg last]; exact ⟨here, rfl⟩⟩
    · rw [← id]
      exact congrArg McpFrame.id buffer
    · rw [← length]
      exact congrArg McpFrame.length buffer

/-- A payload is loaded to its end. -/
theorem ends_payload {no : Fin 3} {payload : List Byte} {index : ℕ}
    (here : can.state = .loadTx no)
    (stage : can.loadCommand = ⟨.payload, BitVec.ofNat 8 index⟩)
    (short : index + payload.length ≤ 8) (some_ : payload ≠ [])
    (length : (can.txBuf no).length =
      BitVec.ofNat 8 (index + payload.length)) :
    ∃ loaded, can.SameTx no loaded ∧ loaded.state = .init ∧
      ∀ property rest, Ends property (payload.map .byte ++ rest) can ↔
        Ends property rest loaded := by
  induction payload generalizing can index with
  | nil => exact absurd rfl some_
  | cons byte payload inductionHypothesis =>
      rw [List.length_cons] at short length
      have small : index ≤ 12 := by omega
      have inside : (BitVec.ofNat 8 index).toNat < maxPayload := by
        rw [Session.toNat_count small]
        unfold maxPayload
        omega
      have final : BitVec.ofNat 8 index + 1 = (can.txBuf no).length ↔
          payload = [] := by
        rw [Session.count_succ_eq_iff (by omega), length,
          Session.toNat_count (by omega), ← List.length_eq_zero_iff]
        omega
      obtain ⟨next, written, same, follows⟩ :=
        write_payload here stage inside byte
      by_cases last : payload = []
      · subst last
        rw [if_pos (final.mpr rfl)] at follows
        exact ⟨next, same, follows, fun property rest =>
          ends_byte written rest⟩
      · rw [if_neg (mt final.mp last)] at follows
        obtain ⟨loaded, later, idle, ends⟩ := inductionHypothesis follows.1
          (follows.2.trans
            (congrArg (LoadTx.mk .payload) (Session.count_succ index)))
          (by omega) last (by
            rw [same.length, length]
            congr 1
            omega)
        exact ⟨loaded, same.trans later, idle, fun property rest =>
          (ends_byte written _).trans (ends property rest)⟩

def mcpLoadTx : Fin 3 → Byte
  | 0 => mcpLoadTx0
  | 1 => mcpLoadTx1
  | 2 => mcpLoadTx2

def mcpRtsTx : Fin 3 → Byte
  | 0 => mcpRtsTx0
  | 1 => mcpRtsTx1
  | 2 => mcpRtsTx2

theorem write_mcpLoadTx (idle : can.state = .init) (no : Fin 3) :
    can.write (mcpLoadTx no) = some (0, { can with state := .loadTx no }) := by
  rw [write, idle]
  dsimp only
  rw [Session.command_eq]
  fin_cases no
  · rfl
  · rfl
  · rfl

theorem write_mcpRtsTx (idle : can.state = .init) (no : Fin 3) :
    can.write (mcpRtsTx no) = some (0, { can with state := .sendTx no }) := by
  rw [write, idle]
  dsimp only
  rw [Session.command_eq]
  fin_cases no
  · rfl
  · rfl
  · rfl

theorem write_id {no : Fin 3} (here : can.state = .loadTx no)
    (index : Fin 4) (stage : can.loadCommand = ⟨.id, BitVec.ofNat 8 index⟩)
    (byte : Byte) :
    ∃ next, can.write byte = some (0, next) ∧ next.state = .loadTx no ∧
      next.loadCommand =
        (if index = 3 then ⟨.length, 0⟩
        else ⟨.id, BitVec.ofNat 8 (index + 1)⟩) ∧
      next.txBuf no =
        (can.txBuf no).set (index.castLE (by decide)) byte ∧
      next.sent = can.sent := by
  have small : index.val ≤ 12 := by omega
  have set : (can.txBuf no).setId (BitVec.ofNat 8 index).toNat byte =
      some ((can.txBuf no).set (index.castLE (by decide)) byte) := by
    rw [Session.toNat_count small]
    exact dif_pos index.isLt
  have last : BitVec.ofNat 8 index + 1 = 4 ↔ index = 3 := by
    rw [Session.count_succ_eq_iff (by omega), Fin.ext_iff]
    exact Nat.succ_inj
  have written : can.write byte = can.loadTxBuf no byte :=
    Session.write_loadTx here
  rw [loadTxBuf, stage] at written
  dsimp only at written
  rw [set, Option.bind_eq_bind, Option.bind_some] at written
  have buffer := Session.txBuf_setTxBuf can no
    ((can.txBuf no).set (index.castLE (by decide)) byte)
  by_cases ends : index = 3
  · rw [if_pos (last.mpr ends)] at written
    exact ⟨_, written, here, (if_pos ends).symm, buffer, rfl⟩
  · rw [if_neg (mt last.mp ends)] at written
    refine ⟨_, written, here, ?_, buffer, rfl⟩
    rw [if_neg ends, Session.count_succ]

/-- The identifier and the length are loaded. -/
theorem ends_head (idle : can.state = .init)
    (fresh : can.loadCommand = ⟨.id, 0⟩) (no : Fin 3) (idField : Fin 4 → Byte)
    (length : Byte) :
    ∃ loaded, loaded.state = .loadTx no ∧ loaded.loadCommand = ⟨.payload, 0⟩ ∧
      (loaded.txBuf no).id = idField ∧ (loaded.txBuf no).length = length ∧
      loaded.sent = can.sent ∧
      ∀ property rest, Ends property ([Event.byte (mcpLoadTx no),
        .byte (idField 0), .byte (idField 1), .byte (idField 2),
        .byte (idField 3), .byte length] ++ rest) can ↔
          Ends property rest loaded := by
  let opened : Can := { can with state := .loadTx no }
  obtain ⟨first, written0, here0, stage0, buffer0, sent0⟩ :=
    write_id (show opened.state = .loadTx no from rfl) 0 fresh (idField 0)
  obtain ⟨second, written1, here1, stage1, buffer1, sent1⟩ :=
    write_id here0 1 stage0 (idField 1)
  obtain ⟨third, written2, here2, stage2, buffer2, sent2⟩ :=
    write_id here1 2 stage1 (idField 2)
  obtain ⟨fourth, written3, here3, stage3, buffer3, sent3⟩ :=
    write_id here2 3 stage2 (idField 3)
  have written4 : fourth.write length = some (0,
      { fourth.setTxBuf no ((fourth.txBuf no).setLength length) with
        loadCommand := ⟨.payload, 0⟩ }) := by
    rw [Session.write_loadTx here3, loadTxBuf, stage3]
    rfl
  have buffer := Session.txBuf_setTxBuf fourth no
    ((fourth.txBuf no).setLength length)
  refine ⟨{ fourth.setTxBuf no ((fourth.txBuf no).setLength length) with
    loadCommand := ⟨.payload, 0⟩ }, here3, rfl, ?_, ?_, ?_, ?_⟩
  · refine (congrArg McpFrame.id buffer).trans ?_
    rw [buffer3, buffer2, buffer1, buffer0]
    funext index
    fin_cases index
    · rfl
    · rfl
    · rfl
    · rfl
  · exact (congrArg McpFrame.length buffer).trans
      (Session.length_setLength _ length)
  · exact sent3.trans (sent2.trans (sent1.trans sent0))
  · intro property rest
    exact (ends_byte (write_mcpLoadTx idle no) _).trans <|
      (ends_byte written0 _).trans <| (ends_byte written1 _).trans <|
        (ends_byte written2 _).trans <| (ends_byte written3 _).trans <|
          ends_byte written4 rest

/-- The bytes that load a frame and send it; the last one is of no account. -/
def loadAndSend (no : Fin 3) (identifier : Identifier) (payload : List Byte)
    (dummy : Byte) : List Event :=
  [.byte (mcpLoadTx no), .byte (identifier.toBuf 0),
    .byte (identifier.toBuf 1), .byte (identifier.toBuf 2),
    .byte (identifier.toBuf 3), .byte (BitVec.ofNat 8 payload.length)] ++
    (payload.map .byte ++ [.byte (mcpRtsTx no), .byte dummy])

/-- A frame leaves with the identifier, and its flag, that was loaded. -/
def Leaves (no : Fin 3) (identifier : Identifier) (payload : List Byte)
    (can : Can) : Prop :=
  ∀ dummy, Ends (fun last => ∃ frame, last.sent = frame :: can.sent ∧
    frame.canId = identifier.canId) (loadAndSend no identifier payload dummy)
      can

theorem canId_eq_number_iff (identifier : Identifier) :
    identifier.number = identifier.canId ↔ identifier.isExtended = false := by
  cases identifier with
  | standard id => simp [Identifier.canId, Identifier.isExtended]
  | extended id =>
      refine iff_of_false ?_ (by simp [Identifier.isExtended])
      intro same
      have bit := congrArg (fun word => word.getLsbD 31) same
      simp [Identifier.canId, Identifier.isExtended, Identifier.number] at bit

theorem ends_send {no : Fin 3} {identifier : Identifier}
    (idle : can.state = .init)
    (loaded : (can.txBuf no).id = identifier.toBuf)
    (short : (can.txBuf no).length.toNat ≤ 8) (before : List CanFrame)
    (same : can.sent = before) (dummy : Byte) :
    Ends (fun last => ∃ frame, last.sent = frame :: before ∧
        frame.canId = identifier.canId)
      [.byte (mcpRtsTx no), .byte dummy] can ↔
        identifier.isExtended = false := by
  let opened : Can := { can with state := .sendTx no }
  obtain ⟨frame, sends⟩ : ∃ frame, frameToSend (can.txBuf no) = some frame :=
    ⟨_, dif_pos short⟩
  have identified : frame.canId = identifier.number := by
    unfold frameToSend at sends
    rw [dif_pos short] at sends
    cases sends
    dsimp only
    rw [loaded, bufToId_toBuf]
  obtain ⟨next, written, sent⟩ : ∃ next, opened.write dummy = some (0, next) ∧
      next.sent = frame :: can.sent := by
    have plain : (if no.val = 4 then 0 else no.val) = no.val :=
      if_neg (by omega)
    have written : opened.write dummy = opened.sendTxBuf no dummy := rfl
    unfold sendTxBuf at written
    simp only [plain, no.isLt, dif_pos, Fin.eta, opened, sends,
      Option.bind_eq_bind, Option.bind_some] at written
    exact ⟨_, written, rfl⟩
  rw [ends_byte (write_mcpRtsTx idle no), ends_byte written, ends_nil, sent,
    same, ← canId_eq_number_iff]
  constructor
  · rintro ⟨other, cons, carries⟩
    cases cons
    exact identified.symm.trans carries
  · intro standard
    exact ⟨frame, rfl, identified.trans standard⟩

/-- A frame leaves as it was loaded exactly if its identifier is a standard one
and it has a payload. -/
theorem leaves_iff (idle : can.state = .init)
    (fresh : can.loadCommand = ⟨.id, 0⟩) (no : Fin 3)
    (identifier : Identifier) {payload : List Byte}
    (short : payload.length ≤ 8) :
    Leaves no identifier payload can ↔
      identifier.isExtended = false ∧ payload ≠ [] := by
  obtain ⟨loaded, here, stage, id, length, sent, head⟩ := ends_head idle fresh
    no identifier.toBuf (BitVec.ofNat 8 payload.length)
  unfold Leaves loadAndSend
  simp only [head]
  by_cases empty : payload = []
  · subst empty
    refine iff_of_false ?_ fun both => both.2 rfl
    intro leaves
    have none : (loaded.txBuf no).length = 0 := length
    obtain ⟨next, written, same, follows⟩ :=
      write_payload here stage (by decide) (mcpRtsTx no)
    rw [none, if_neg (by decide)] at follows
    obtain ⟨last, ended, still, _⟩ :=
      write_payload follows.1 follows.2 (by decide) 0
    have ends := leaves 0
    rw [List.map_nil, List.nil_append, ends_byte written, ends_byte ended,
      ends_nil] at ends
    obtain ⟨frame, more, _⟩ := ends
    rw [still.sent, same.sent, sent] at more
    exact List.cons_ne_self _ _ more.symm
  · have whole : 0 + payload.length ≤ 8 := by omega
    obtain ⟨ready, same, rest, payloadEnds⟩ :=
      ends_payload here stage whole empty
        (length.trans (congrArg _ (Nat.zero_add _).symm))
    have fits : (ready.txBuf no).length.toNat ≤ 8 := by
      rw [same.length, length, Session.toNat_count (by omega)]
      exact short
    simp only [payloadEnds, ends_send rest (same.id.trans id) fits can.sent
      (same.sent.trans sent)]
    exact ⟨fun standard => ⟨standard 0, empty⟩, fun both _ => both.1⟩

/-- An extended frame without payload. -/
def extendedFrame : CanFrame where
  canId := (Identifier.extended 0x12345).canId
  canDlc := 0
  data _ := 0
  fits := by decide

end Can

end Mcp2515

end RiscvVp
