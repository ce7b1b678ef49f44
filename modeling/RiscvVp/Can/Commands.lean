import Mathlib
import RiscvVp.Can.Mcp2515
import RiscvVp.Device.Trace

/-!
# The commands of the CAN controller

What a command still awaits is kept beside the controller, by the protocol
alone.  As long as the controller keeps in step with it, every byte is within
range; and the protocol says when the controller has to be ready for the next
command.
-/

namespace RiscvVp

namespace Mcp2515

attribute [local instance] neZero_two neZero_three neZero_four

open Trace

/-! ## The protocol -/

/-- The next byte, as the protocol has it. -/
inductive Awaiting : Type
  | command
  | readAddress
  | readData
  | writeAddress
  | writeData
  | bitmodAddress
  | bitmodMask
  | bitmodData
  | txId (no : Fin 3) (received : ℕ)
  | txLength (no : Fin 3)
  | txPayload (no : Fin 3) (received prescribed : ℕ)
  | rx (no : Fin 2) (received : ℕ)
  | status
  | rxStatus
  deriving DecidableEq, Repr

/-- The payload that a length byte prescribes, by its data length code. -/
def dataLength (length : Byte) : ℕ :=
  min (length &&& 0x0f).toNat 8

theorem dataLength_le (length : Byte) : dataLength length ≤ 8 :=
  Nat.min_le_right _ _

theorem dataLength_of_le {length : Byte} (short : length.toNat ≤ 8) :
    dataLength length = length.toNat := by
  have low : (length &&& 0x0f).toNat = length.toNat := by
    have masked : (length &&& 0x0f).toNat = length.toNat % 2 ^ 4 :=
      Nat.and_two_pow_sub_one_eq_mod length.toNat 4
    omega
  rw [dataLength, low]
  exact Nat.min_eq_left short

/-- Commands that have no operands and send buffers. -/
def sends : List Byte :=
  [mcpRtsTx0, mcpRtsTx1, mcpRtsTx2, mcpRtsAll]

/-- Commands with operands. -/
def opens : List Byte :=
  [mcpWrite, mcpRead, mcpBitmod, mcpLoadTx0, mcpLoadTx1, mcpLoadTx2,
    mcpReadRx0, mcpReadRx1, mcpReadStatus]

namespace Awaiting

/-- What follows a command. -/
def after (byte : Byte) : Awaiting :=
  if byte = mcpWrite then .writeAddress
  else if byte = mcpRead then .readAddress
  else if byte = mcpBitmod then .bitmodAddress
  else if byte = mcpLoadTx0 then .txId 0 0
  else if byte = mcpLoadTx1 then .txId 1 0
  else if byte = mcpLoadTx2 then .txId 2 0
  else if byte = mcpReadRx0 then .rx 0 0
  else if byte = mcpReadRx1 then .rx 1 0
  else if byte = mcpReadStatus then .status
  else if byte = mcpRxStatus then .rxStatus
  else .command

/-- A receive buffer is read out by the length that is in it. -/
def next (byte : Byte) (can : Can) : Awaiting → Awaiting
  | .command => after byte
  | .readAddress => .readData
  | .readData => .command
  | .writeAddress => .writeData
  | .writeData => .command
  | .bitmodAddress => .bitmodMask
  | .bitmodMask => .bitmodData
  | .bitmodData => .command
  | .txId no received =>
      if received = 3 then .txLength no else .txId no (received + 1)
  | .txLength no =>
      if dataLength byte = 0 then .command
      else .txPayload no 0 (dataLength byte)
  | .txPayload no received prescribed =>
      if received + 1 = prescribed then .command
      else .txPayload no (received + 1) prescribed
  | .rx no received =>
      if received + 1 < 5 + dataLength (can.rxBuf no).length then
        .rx no (received + 1)
      else .command
  | .status | .rxStatus => .command

end Awaiting

/-- The controller, and what the protocol awaits. -/
structure Session where
  can : Can
  awaiting : Awaiting

namespace Session

def step (session : Session) : Event → Option Session
  | .byte byte => (session.can.step (.byte byte)).map
      (⟨·, session.awaiting.next byte session.can⟩)
  | .frame frame => (session.can.step (.frame frame)).map
      (⟨·, session.awaiting⟩)

def Steps (session : Session) (event : Event) (later : Session) : Prop :=
  session.step event = some later

/-- What is claimed of an event: no index is out of range, and a command that
has got its operands leaves the controller ready for the next. -/
def Safe (session : Session) (event : Event) : Prop :=
  ∃ later, session.step event = some later ∧
    (later.awaiting = .command → later.can.state = .init)

/-- The bytes that the controller handles as the protocol has it. -/
def Admits (session : Session) : Event → Prop
  | .frame _ => True
  | .byte byte =>
      match session.awaiting with
      | .command => byte ∉ sends
      | .readData => byte = mcpReset
      | .writeData => session.can.writeSelected.toNat ≤ mcpRxb1Sidh
      | .bitmodData => session.can.modReg.address.toNat ≤ mcpRxb1Sidh
      | .txLength _ => dataLength byte ≠ 0
      | .txPayload no received prescribed => received + 1 = prescribed →
          (session.can.txBuf no).length.toNat ≤ 8
      | .rx no received =>
          5 + dataLength (session.can.rxBuf no).length ≤ received + 1 →
            (session.can.rxBuf no).length.toNat ≤ 8
      | .rxStatus => byte ∉ sends ∧ byte ∉ opens
      | _ => True

end Session

/-! ## Keeping in step -/

namespace Awaiting

/-- The state that the controller is in. -/
def state : Awaiting → State
  | .command | .rxStatus => .init
  | .readAddress | .readData => .readRegister
  | .writeAddress | .writeData => .writeRegister
  | .bitmodAddress | .bitmodMask | .bitmodData => .bitmod
  | .txId no _ | .txLength no | .txPayload no _ _ => .loadTx no
  | .rx no _ => .readRx no
  | .status => .getStatus

def modStage : Awaiting → ModStage
  | .bitmodMask => .mask
  | .bitmodData => .data
  | _ => .address

def loadTx : Awaiting → LoadTx
  | .txId _ received => ⟨.id, BitVec.ofNat 8 received⟩
  | .txLength _ => ⟨.length, 0⟩
  | .txPayload _ received _ => ⟨.payload, BitVec.ofNat 8 received⟩
  | _ => ⟨.id, 0⟩

/-- How far a receive buffer has been read. -/
def rxCount : Awaiting → ℕ
  | .rx _ received => received
  | _ => 0

/-- What the protocol itself keeps to. -/
def Proper (can : Can) : Awaiting → Prop
  | .txId _ received => received < 4
  | .txPayload no received prescribed => received < prescribed ∧
      prescribed = dataLength (can.txBuf no).length
  | .rx _ received => received ≤ 12
  | _ => True

end Awaiting

/-- A selected register, or none. -/
def Selected (present : Prop) (selected : BitVec 16) : Prop :=
  present ∧ 0 ≤ selected.toInt ∨ ¬ present ∧ selected = -1

theorem toInt_of_byte (byte : Byte) : 0 ≤ (byte.setWidth 16).toInt := by
  have small : byte.toNat < 256 := byte.isLt
  have same : (byte.setWidth 16).toNat = byte.toNat := by
    rw [BitVec.toNat_setWidth]
    exact Nat.mod_eq_of_lt (by omega)
  rw [BitVec.toInt_eq_toNat_of_lt (by omega)]
  exact Int.natCast_nonneg _

theorem Selected.of_byte {present : Prop} (byte : Byte) (holds : present) :
    Selected present (byte.setWidth 16) :=
  Or.inl ⟨holds, toInt_of_byte byte⟩

theorem Selected.eq_none {present : Prop} {selected : BitVec 16}
    (holds : Selected present selected) (absent : ¬ present) :
    selected = -1 := by
  rcases holds with ⟨here, _⟩ | ⟨_, none⟩
  · exact absurd here absent
  · exact none

theorem Selected.of_absent {present later : Prop} {selected : BitVec 16}
    (holds : Selected present selected) (absent : ¬ present)
    (still : ¬ later) : Selected later selected :=
  Or.inr ⟨still, holds.eq_none absent⟩

theorem Selected.none {present : Prop} (absent : ¬ present) :
    Selected present (-1) :=
  Or.inr ⟨absent, rfl⟩

/-- The controller keeps in step with the protocol. -/
structure Session.InStep (session : Session) : Prop where
  state : session.can.state = session.awaiting.state
  read : Selected (session.awaiting = .readData) session.can.readSelected
  write : Selected (session.awaiting = .writeData) session.can.writeSelected
  modify : session.can.modReg.state = session.awaiting.modStage
  load : session.can.loadCommand = session.awaiting.loadTx
  rx : session.can.rxPtr = BitVec.ofNat 8 session.awaiting.rxCount
  proper : session.awaiting.Proper session.can

namespace Session

variable {can : Can} {byte : Byte}

/-- An event is handled as the protocol has it exactly if it is admitted, and
then the controller stays in step. -/
structure Exact (session : Session) (event : Event) : Prop where
  safe_iff : session.Safe event ↔ session.Admits event
  kept : ∀ later, session.Admits event → session.step event = some later →
    later.InStep

theorem exact_of_some {session later : Session} {event : Event}
    (stepped : session.step event = some later)
    (ready : (later.awaiting = .command → later.can.state = .init) ↔
      session.Admits event)
    (kept : session.Admits event → later.InStep) : session.Exact event := by
  constructor
  · rw [← ready]
    constructor
    · rintro ⟨other, otherStepped, safe⟩
      cases stepped.symm.trans otherStepped
      exact safe
    · intro safe
      exact ⟨later, stepped, safe⟩
  · intro other admits otherStepped
    cases stepped.symm.trans otherStepped
    exact kept admits

/-- A refused byte ends its command, if it has a result, in another state than
that for commands. -/
theorem exact_of_refused {session : Session} {event : Event}
    (refused : ¬ session.Admits event)
    (busy : ∀ later, session.step event = some later →
      later.awaiting = .command ∧ later.can.state ≠ .init) :
    session.Exact event := by
  constructor
  · refine iff_of_false ?_ refused
    rintro ⟨later, stepped, ready⟩
    exact (busy later stepped).2 (ready (busy later stepped).1)
  · intro later admits
    exact absurd admits refused

/-- An admitted byte that is not the last of its command. -/
theorem exact_of_admits {session later : Session} {event : Event}
    (stepped : session.step event = some later)
    (admits : session.Admits event) (kept : later.InStep) :
    session.Exact event := by
  refine exact_of_some stepped (iff_of_true ?_ admits) fun _ => kept
  intro ready
  rw [kept.state, ready]
  rfl

theorem step_byte (session : Session) (byte : Byte) :
    session.step (.byte byte) = (session.can.write byte).map
      fun result => ⟨result.2, session.awaiting.next byte session.can⟩ := by
  rw [step, Can.step, Option.map_map]
  rfl

/-! ### Commands -/

/-- The state that a command assigns. -/
def commanded (byte : Byte) : Option State :=
  if byte = mcpWrite then some .writeRegister
  else if byte = mcpRead then some .readRegister
  else if byte = mcpBitmod then some .bitmod
  else if byte = mcpLoadTx0 then some (.loadTx 0)
  else if byte = mcpLoadTx1 then some (.loadTx 1)
  else if byte = mcpLoadTx2 then some (.loadTx 2)
  else if byte = mcpRtsTx0 then some (.sendTx 0)
  else if byte = mcpRtsTx1 then some (.sendTx 1)
  else if byte = mcpRtsTx2 then some (.sendTx 2)
  else if byte = mcpRtsAll then some .sendAll
  else if byte = mcpReadRx0 then some (.readRx 0)
  else if byte = mcpReadRx1 then some (.readRx 1)
  else if byte = mcpReadStatus then some .getStatus
  else if byte = mcpRxStatus then none
  else if byte = mcpReset then some .init
  else none

theorem command_eq (byte : Byte) (can : Can) :
    can.command byte =
      { can with state := (commanded byte).getD can.state } := by
  let assign : Option State → Can := fun chosen =>
    { can with state := chosen.getD can.state }
  have spread : assign (commanded byte) = can.command byte := by
    simp only [commanded, apply_ite assign]
    rfl
  exact spread.symm

/-- What each of the bytes does as a command: one that does not send leaves the
controller where the protocol has it, one that sends does not open anything, and
nothing is begun while it is awaited. -/
theorem command_facts : ∀ byte : Byte,
    (byte ∉ sends →
      (commanded byte).getD .init = (Awaiting.after byte).state) ∧
    (byte ∈ sends →
      Awaiting.after byte = .command ∧ (commanded byte).getD .init ≠ .init) ∧
    ((commanded byte).getD .init = .init ↔ byte ∉ sends ∧ byte ∉ opens) ∧
    (byte ≠ mcpReset → (commanded byte).getD .readRegister ≠ .init) ∧
    Awaiting.after byte ≠ .readData ∧ Awaiting.after byte ≠ .writeData ∧
      (Awaiting.after byte).modStage = .address ∧
      (Awaiting.after byte).loadTx = ⟨.id, 0⟩ ∧
      (Awaiting.after byte).rxCount = 0 := by
  decide

theorem commanded_of_not_sends {byte : Byte} (sent : byte ∉ sends) :
    (commanded byte).getD .init = (Awaiting.after byte).state :=
  (command_facts byte).1 sent

theorem commanded_of_sends {byte : Byte} (sent : byte ∈ sends) :
    Awaiting.after byte = .command ∧ (commanded byte).getD .init ≠ .init :=
  (command_facts byte).2.1 sent

/-- The bytes that no command is begun by. -/
theorem commanded_eq_init_iff (byte : Byte) :
    (commanded byte).getD .init = .init ↔ byte ∉ sends ∧ byte ∉ opens :=
  (command_facts byte).2.2.1

/-- Another command after a register has been read, which only a reset ends. -/
theorem commanded_after_read {byte : Byte} (reset : byte ≠ mcpReset) :
    (commanded byte).getD .readRegister ≠ .init :=
  (command_facts byte).2.2.2.1 reset

/-- A command is awaited with nothing begun. -/
theorem after_fresh (byte : Byte) :
    Awaiting.after byte ≠ .readData ∧ Awaiting.after byte ≠ .writeData ∧
      (Awaiting.after byte).modStage = .address ∧
      (Awaiting.after byte).loadTx = ⟨.id, 0⟩ ∧
      (Awaiting.after byte).rxCount = 0 :=
  (command_facts byte).2.2.2.2

theorem after_proper (byte : Byte) (can : Can) :
    (Awaiting.after byte).Proper can := by
  unfold Awaiting.after
  repeat' split
  all_goals simp [Awaiting.Proper]

theorem exact_command (inStep : InStep ⟨can, .command⟩) :
    Exact ⟨can, .command⟩ (.byte byte) := by
  have idle : can.state = .init := inStep.state
  have stepped : step ⟨can, .command⟩ (.byte byte) =
      some ⟨{ can with state := (commanded byte).getD .init },
        Awaiting.after byte⟩ := by
    rw [step_byte, Can.write, idle, command_eq, idle]
    rfl
  have fresh := after_fresh byte
  by_cases sent : byte ∈ sends
  · have refused : ¬ Admits ⟨can, .command⟩ (.byte byte) := fun quiet =>
      quiet sent
    refine exact_of_refused refused fun later same => ?_
    cases stepped.symm.trans same
    exact commanded_of_sends sent
  · apply exact_of_admits stepped sent
    exact
      { state := commanded_of_not_sends sent
        read := inStep.read.of_absent nofun fresh.1
        write := inStep.write.of_absent nofun fresh.2.1
        modify := inStep.modify.trans fresh.2.2.1.symm
        load := inStep.load.trans fresh.2.2.2.1.symm
        rx := by
          rw [fresh.2.2.2.2]
          exact inStep.rx
        proper := after_proper byte _ }

theorem exact_rxStatus (inStep : InStep ⟨can, .rxStatus⟩) :
    Exact ⟨can, .rxStatus⟩ (.byte byte) := by
  have idle : can.state = .init := inStep.state
  have stepped : step ⟨can, .rxStatus⟩ (.byte byte) =
      some ⟨{ can with state := (commanded byte).getD .init }, .command⟩ := by
    rw [step_byte, Can.write, idle, command_eq, idle]
    rfl
  have plain := commanded_eq_init_iff byte
  refine exact_of_some stepped ?_ fun admits => ?_
  · exact ⟨fun ready => plain.mp (ready rfl), fun admits _ => plain.mpr admits⟩
  · exact ⟨plain.mpr admits, inStep.read.of_absent nofun nofun,
      inStep.write.of_absent nofun nofun, inStep.modify, inStep.load,
      inStep.rx, trivial⟩

theorem exact_status (inStep : InStep ⟨can, .status⟩) :
    Exact ⟨can, .status⟩ (.byte byte) := by
  have here : can.state = .getStatus := inStep.state
  have stepped : step ⟨can, .status⟩ (.byte byte) =
      some ⟨{ can with state := .init }, .command⟩ := by
    rw [step_byte, Can.write, here]
    rfl
  exact exact_of_admits stepped trivial
    ⟨rfl, inStep.read.of_absent nofun nofun,
      inStep.write.of_absent nofun nofun, inStep.modify, inStep.load,
      inStep.rx, trivial⟩

/-! ### Registers -/

theorem exact_readAddress (inStep : InStep ⟨can, .readAddress⟩) :
    Exact ⟨can, .readAddress⟩ (.byte byte) := by
  have here : can.state = .readRegister := inStep.state
  have none : can.readSelected = -1 := inStep.read.eq_none nofun
  have written : can.write byte = can.readRegister byte := by
    rw [Can.write, here]
  have stepped : step ⟨can, .readAddress⟩ (.byte byte) =
      some ⟨{ can with readSelected := byte.setWidth 16 }, .readData⟩ := by
    rw [step_byte, written, Can.readRegister, none, if_pos (by decide)]
    rfl
  exact exact_of_admits stepped trivial
    ⟨here, .of_byte byte rfl, inStep.write.of_absent nofun nofun,
      inStep.modify, inStep.load, inStep.rx, trivial⟩

theorem exact_readData (inStep : InStep ⟨can, .readData⟩) :
    Exact ⟨can, .readData⟩ (.byte byte) := by
  have here : can.state = .readRegister := inStep.state
  have selected : ¬ can.readSelected.toInt < 0 := by
    rcases inStep.read with ⟨_, selected⟩ | ⟨absent, _⟩
    · exact Int.not_lt.mpr selected
    · exact absurd rfl absent
  have written : can.write byte = can.readRegister byte := by
    rw [Can.write, here]
  by_cases reset : byte = mcpReset
  · subst reset
    have stepped : step ⟨can, .readData⟩ (.byte mcpReset) =
        some ⟨{ can with readSelected := -1, state := .init }, .command⟩ := by
      rw [step_byte, written, Can.readRegister, if_neg selected,
        if_pos (by decide), command_eq]
      rfl
    exact exact_of_admits stepped rfl
      ⟨rfl, .none nofun, inStep.write.of_absent nofun nofun, inStep.modify,
        inStep.load, inStep.rx, trivial⟩
  · refine exact_of_refused reset fun later stepped => ?_
    rw [step_byte, written, Option.map_eq_some_iff] at stepped
    obtain ⟨result, read, rfl⟩ := stepped
    refine ⟨rfl, ?_⟩
    dsimp only
    rw [Can.readRegister, if_neg selected] at read
    split at read
    · cases read
      rw [command_eq, here]
      exact commanded_after_read reset
    · split at read
      · cases read
        rw [here]
        decide
      · obtain ⟨value, _, result⟩ := Option.bind_eq_some_iff.mp read
        cases result
        rw [here]
        decide

theorem exact_writeAddress (inStep : InStep ⟨can, .writeAddress⟩) :
    Exact ⟨can, .writeAddress⟩ (.byte byte) := by
  have here : can.state = .writeRegister := inStep.state
  have none : can.writeSelected = -1 := inStep.write.eq_none nofun
  have written : can.write byte = can.writeRegister byte := by
    rw [Can.write, here]
  have stepped : step ⟨can, .writeAddress⟩ (.byte byte) =
      some ⟨{ can with writeSelected := byte.setWidth 16 }, .writeData⟩ := by
    rw [step_byte, written, Can.writeRegister, none, if_pos (by decide)]
    rfl
  exact exact_of_admits stepped trivial
    ⟨here, inStep.read.of_absent nofun nofun, .of_byte byte rfl,
      inStep.modify, inStep.load, inStep.rx, trivial⟩

theorem setRegister_of_le {index : ℕ} (inside : index ≤ mcpRxb1Sidh)
    (can : Can) (byte : Byte) :
    can.setRegister index byte = some { can with
      registers := Function.update can.registers
        ⟨index, Nat.lt_succ_of_le inside⟩ byte } :=
  dif_pos _

theorem exact_writeData (inStep : InStep ⟨can, .writeData⟩) :
    Exact ⟨can, .writeData⟩ (.byte byte) := by
  have here : can.state = .writeRegister := inStep.state
  have nonnegative : 0 ≤ can.writeSelected.toInt := by
    rcases inStep.write with ⟨_, selected⟩ | ⟨absent, _⟩
    · exact selected
    · exact absurd rfl absent
  have same : can.writeSelected.toInt = can.writeSelected.toNat := by
    have split := BitVec.toInt_eq_toNat_cond can.writeSelected
    have bound := can.writeSelected.isLt
    split at split <;> omega
  have written : can.write byte = can.writeRegister byte := by
    rw [Can.write, here]
  rw [Can.writeRegister, if_neg (Int.not_lt.mpr nonnegative)] at written
  by_cases low : can.writeSelected.toNat ≤ mcpRxb1Sidh
  · have stepped : step ⟨can, .writeData⟩ (.byte byte) =
        some ⟨{ can with
          registers := Function.update can.registers
            ⟨can.writeSelected.toNat, Nat.lt_succ_of_le low⟩ byte
          writeSelected := -1
          state := .init }, .command⟩ := by
      rw [step_byte, written, if_neg (by omega), setRegister_of_le low]
      rfl
    exact exact_of_admits stepped low
      ⟨rfl, inStep.read.of_absent nofun nofun, .none nofun, inStep.modify,
        inStep.load, inStep.rx, trivial⟩
  · refine exact_of_refused low fun later stepped => ?_
    rw [step_byte, written, if_pos (by omega)] at stepped
    cases stepped
    refine ⟨rfl, ?_⟩
    dsimp only
    rw [here]
    decide

theorem exact_bitmodAddress (inStep : InStep ⟨can, .bitmodAddress⟩) :
    Exact ⟨can, .bitmodAddress⟩ (.byte byte) := by
  have here : can.state = .bitmod := inStep.state
  have stage : can.modReg.state = .address := inStep.modify
  have written : can.write byte = can.modifyRegister byte := by
    rw [Can.write, here]
  have stepped : step ⟨can, .bitmodAddress⟩ (.byte byte) =
      some ⟨{ can with
        modReg := { can.modReg with address := byte, state := .mask } },
        .bitmodMask⟩ := by
    rw [step_byte, written, Can.modifyRegister, stage]
    rfl
  exact exact_of_admits stepped trivial
    ⟨here, inStep.read.of_absent nofun nofun,
      inStep.write.of_absent nofun nofun, rfl, inStep.load, inStep.rx,
      trivial⟩

theorem exact_bitmodMask (inStep : InStep ⟨can, .bitmodMask⟩) :
    Exact ⟨can, .bitmodMask⟩ (.byte byte) := by
  have here : can.state = .bitmod := inStep.state
  have stage : can.modReg.state = .mask := inStep.modify
  have written : can.write byte = can.modifyRegister byte := by
    rw [Can.write, here]
  have stepped : step ⟨can, .bitmodMask⟩ (.byte byte) =
      some ⟨{ can with
        modReg := { can.modReg with mask := byte, state := .data } },
        .bitmodData⟩ := by
    rw [step_byte, written, Can.modifyRegister, stage]
    rfl
  exact exact_of_admits stepped trivial
    ⟨here, inStep.read.of_absent nofun nofun,
      inStep.write.of_absent nofun nofun, rfl, inStep.load, inStep.rx,
      trivial⟩

theorem exact_bitmodData (inStep : InStep ⟨can, .bitmodData⟩) :
    Exact ⟨can, .bitmodData⟩ (.byte byte) := by
  have here : can.state = .bitmod := inStep.state
  have stage : can.modReg.state = .data := inStep.modify
  have written : can.write byte = can.modifyRegister byte := by
    rw [Can.write, here]
  rw [Can.modifyRegister, stage] at written
  by_cases low : can.modReg.address.toNat ≤ mcpRxb1Sidh
  · have value : can.getRegister can.modReg.address.toNat =
        some (can.registers ⟨can.modReg.address.toNat,
          Nat.lt_succ_of_le low⟩) := dif_pos _
    dsimp only at written
    rw [value, Option.bind_eq_bind, Option.bind_some,
      setRegister_of_le low] at written
    have stepped := step_byte ⟨can, .bitmodData⟩ byte
    dsimp only at stepped
    rw [written] at stepped
    exact exact_of_admits stepped low
      ⟨rfl, inStep.read.of_absent nofun nofun,
        inStep.write.of_absent nofun nofun, rfl, inStep.load, inStep.rx,
        trivial⟩
  · refine exact_of_refused low fun later stepped => ?_
    have missing : can.getRegister can.modReg.address.toNat = none :=
      dif_neg fun inside => low (Nat.le_of_lt_succ inside)
    dsimp only at written
    rw [step_byte, written, missing] at stepped
    cases stepped

/-! ### Transmit buffers -/

theorem toNat_count {count : ℕ} (small : count ≤ 12) :
    (BitVec.ofNat 8 count).toNat = count := by
  rw [BitVec.toNat_ofNat]
  exact Nat.mod_eq_of_lt (by omega)

theorem count_succ (count : ℕ) :
    BitVec.ofNat 8 count + 1 = BitVec.ofNat 8 (count + 1) :=
  (BitVec.ofNat_add count 1).symm

theorem count_succ_eq_iff {count : ℕ} (small : count < 12) (length : Byte) :
    BitVec.ofNat 8 count + 1 = length ↔ count + 1 = length.toNat := by
  rw [count_succ, ← BitVec.toNat_inj, toNat_count small]

theorem length_setLength (frame : McpFrame) (byte : Byte) :
    (frame.setLength byte).length = byte := by
  simp [McpFrame.setLength, McpFrame.set, McpFrame.length]

/-- The payload does not overlap the length. -/
theorem length_setPayload {frame later : McpFrame} {index : ℕ} {byte : Byte}
    (set : frame.setPayload index byte = some later) :
    later.length = frame.length := by
  unfold McpFrame.setPayload at set
  split at set
  · cases set
    exact Function.update_of_ne (by simp [Fin.ext_iff]; omega) _ _
  · cases set

theorem txBuf_setTxBuf (can : Can) (no : Fin 3) (frame : McpFrame) :
    (can.setTxBuf no frame).txBuf no = frame :=
  Function.update_self _ _ _

theorem write_loadTx {no : Fin 3} (here : can.state = .loadTx no) :
    can.write byte = can.loadTxBuf no byte := by
  rw [Can.write, here]

theorem exact_txId {no : Fin 3} {received : ℕ}
    (inStep : InStep ⟨can, .txId no received⟩) :
    Exact ⟨can, .txId no received⟩ (.byte byte) := by
  have here : can.state = .loadTx no := inStep.state
  have fresh : can.loadCommand = ⟨.id, BitVec.ofNat 8 received⟩ := inStep.load
  have inside : received < 4 := inStep.proper
  have index : (BitVec.ofNat 8 received).toNat < 4 := by
    rwa [toNat_count (by omega)]
  obtain ⟨frame, set⟩ : ∃ frame, (can.txBuf no).setId
      (BitVec.ofNat 8 received).toNat byte = some frame := ⟨_, dif_pos index⟩
  have written : can.write byte =
      if received = 3 then
        some (0, { can.setTxBuf no frame with loadCommand := ⟨.length, 0⟩ })
      else some (0, { can.setTxBuf no frame with
        loadCommand := ⟨.id, BitVec.ofNat 8 received + 1⟩ }) := by
    have last : BitVec.ofNat 8 received + 1 = 4 ↔ received = 3 := by
      rw [count_succ_eq_iff (by omega)]
      exact Nat.succ_inj
    rw [write_loadTx here, Can.loadTxBuf, fresh]
    dsimp only
    rw [set, Option.bind_eq_bind, Option.bind_some]
    simp only [last]
  by_cases last : received = 3
  · have stepped : step ⟨can, .txId no received⟩ (.byte byte) =
        some ⟨{ can.setTxBuf no frame with loadCommand := ⟨.length, 0⟩ },
          .txLength no⟩ := by
      rw [step_byte, written, if_pos last]
      dsimp only [Option.map, Awaiting.next]
      rw [if_pos last]
    exact exact_of_admits stepped trivial
      ⟨here, inStep.read.of_absent nofun nofun,
        inStep.write.of_absent nofun nofun, inStep.modify, rfl, inStep.rx,
        trivial⟩
  · have stepped : step ⟨can, .txId no received⟩ (.byte byte) =
        some ⟨{ can.setTxBuf no frame with
          loadCommand := ⟨.id, BitVec.ofNat 8 received + 1⟩ },
          .txId no (received + 1)⟩ := by
      rw [step_byte, written, if_neg last]
      dsimp only [Option.map, Awaiting.next]
      rw [if_neg last]
    have more : received + 1 < 4 := by omega
    exact exact_of_admits stepped trivial
      ⟨here, inStep.read.of_absent nofun nofun,
        inStep.write.of_absent nofun nofun, inStep.modify,
        congrArg (LoadTx.mk .id) (count_succ received), inStep.rx, more⟩

theorem exact_txLength {no : Fin 3} (inStep : InStep ⟨can, .txLength no⟩) :
    Exact ⟨can, .txLength no⟩ (.byte byte) := by
  have here : can.state = .loadTx no := inStep.state
  have fresh : can.loadCommand = ⟨.length, 0⟩ := inStep.load
  have written : can.write byte =
      some (0, { can.setTxBuf no ((can.txBuf no).setLength byte) with
        loadCommand := ⟨.payload, 0⟩ }) := by
    rw [write_loadTx here, Can.loadTxBuf, fresh]
  by_cases empty : dataLength byte = 0
  · have refused : ¬ Admits ⟨can, .txLength no⟩ (.byte byte) :=
      fun present => present empty
    refine exact_of_refused refused fun later stepped => ?_
    rw [step_byte, written] at stepped
    cases stepped
    refine ⟨if_pos empty, ?_⟩
    rw [Can.setTxBuf]
    dsimp only
    rw [here]
    nofun
  · have stepped : step ⟨can, .txLength no⟩ (.byte byte) =
        some ⟨{ can.setTxBuf no ((can.txBuf no).setLength byte) with
          loadCommand := ⟨.payload, 0⟩ },
          .txPayload no 0 (dataLength byte)⟩ := by
      rw [step_byte, written]
      dsimp only [Option.map, Awaiting.next]
      rw [if_neg empty]
    have proper : 0 < dataLength byte ∧ dataLength byte = dataLength
        ((can.setTxBuf no ((can.txBuf no).setLength byte)).txBuf no).length := by
      rw [txBuf_setTxBuf, length_setLength]
      exact ⟨Nat.pos_of_ne_zero empty, rfl⟩
    exact exact_of_admits stepped empty
      ⟨here, inStep.read.of_absent nofun nofun,
        inStep.write.of_absent nofun nofun, inStep.modify, rfl, inStep.rx,
        proper⟩

theorem exact_txPayload {no : Fin 3} {received prescribed : ℕ}
    (inStep : InStep ⟨can, .txPayload no received prescribed⟩) :
    Exact ⟨can, .txPayload no received prescribed⟩ (.byte byte) := by
  have here : can.state = .loadTx no := inStep.state
  have fresh : can.loadCommand = ⟨.payload, BitVec.ofNat 8 received⟩ :=
    inStep.load
  obtain ⟨before, prescribes⟩ : received < prescribed ∧
      prescribed = dataLength (can.txBuf no).length := inStep.proper
  have bound := dataLength_le (can.txBuf no).length
  have index : (BitVec.ofNat 8 received).toNat < maxPayload := by
    rw [toNat_count (by omega)]
    unfold maxPayload
    omega
  obtain ⟨frame, set⟩ : ∃ frame, (can.txBuf no).setPayload
      (BitVec.ofNat 8 received).toNat byte = some frame := ⟨_, dif_pos index⟩
  have length := length_setPayload set
  have written : can.write byte =
      if received + 1 = (can.txBuf no).length.toNat then
        some (0, { can.setTxBuf no frame with
          loadCommand := ⟨.id, 0⟩, state := .init })
      else some (0, { can.setTxBuf no frame with
        loadCommand := ⟨.payload, BitVec.ofNat 8 received + 1⟩ }) := by
    have last := count_succ_eq_iff (show received < 12 by omega)
      (can.txBuf no).length
    rw [write_loadTx here, Can.loadTxBuf, fresh]
    dsimp only
    rw [set, Option.bind_eq_bind, Option.bind_some, length]
    simp only [last]
  have short : (can.txBuf no).length.toNat ≤ 8 →
      prescribed = (can.txBuf no).length.toNat :=
    fun short => prescribes.trans (dataLength_of_le short)
  by_cases last : received + 1 = prescribed
  · by_cases fits : (can.txBuf no).length.toNat ≤ 8
    · have stepped : step ⟨can, .txPayload no received prescribed⟩
          (.byte byte) = some ⟨{ can.setTxBuf no frame with
            loadCommand := ⟨.id, 0⟩, state := .init }, .command⟩ := by
        rw [step_byte, written, if_pos (last.trans (short fits))]
        dsimp only [Option.map, Awaiting.next]
        rw [if_pos last]
      exact exact_of_admits stepped (fun _ => fits)
        ⟨rfl, inStep.read.of_absent nofun nofun,
          inStep.write.of_absent nofun nofun, inStep.modify, rfl, inStep.rx,
          trivial⟩
    · refine exact_of_refused (fun admits => fits (admits last))
        fun later stepped => ?_
      rw [step_byte, written, if_neg (by omega)] at stepped
      cases stepped
      refine ⟨if_pos last, ?_⟩
      rw [Can.setTxBuf]
      dsimp only
      rw [here]
      nofun
  · have more : received + 1 ≠ (can.txBuf no).length.toNat := by
      intro ends
      have fits : (can.txBuf no).length.toNat ≤ 8 := by omega
      exact last (ends.trans (short fits).symm)
    have stepped : step ⟨can, .txPayload no received prescribed⟩
        (.byte byte) = some ⟨{ can.setTxBuf no frame with
          loadCommand := ⟨.payload, BitVec.ofNat 8 received + 1⟩ },
          .txPayload no (received + 1) prescribed⟩ := by
      rw [step_byte, written, if_neg more]
      dsimp only [Option.map, Awaiting.next]
      rw [if_neg last]
    have proper : received + 1 < prescribed ∧ prescribed = dataLength
        ((can.setTxBuf no frame).txBuf no).length := by
      rw [txBuf_setTxBuf, length]
      exact ⟨by omega, prescribes⟩
    exact exact_of_admits stepped (fun ends => absurd ends last)
      ⟨here, inStep.read.of_absent nofun nofun,
        inStep.write.of_absent nofun nofun, inStep.modify,
        congrArg (LoadTx.mk .payload) (count_succ received), inStep.rx,
        proper⟩

/-! ### Receive buffers -/

theorem dataLength_le_toNat (length : Byte) :
    dataLength length ≤ length.toNat :=
  (Nat.min_le_left _ _).trans Nat.and_le_left

theorem exact_rx {no : Fin 2} {received : ℕ}
    (inStep : InStep ⟨can, .rx no received⟩) :
    Exact ⟨can, .rx no received⟩ (.byte byte) := by
  have here : can.state = .readRx no := inStep.state
  have pointer : can.rxPtr = BitVec.ofNat 8 received := inStep.rx
  have inside : received ≤ 12 := inStep.proper
  let length := (can.rxBuf no).length
  have bound : dataLength length ≤ 8 := dataLength_le length
  have within : dataLength length ≤ length.toNat := dataLength_le_toNat length
  have index : (BitVec.ofNat 8 received).toNat < 5 + maxPayload := by
    rw [toNat_count inside]
    unfold maxPayload
    omega
  obtain ⟨ret, get⟩ : ∃ ret, (can.rxBuf no).getRaw
      (BitVec.ofNat 8 received).toNat = some ret := ⟨_, dif_pos index⟩
  have count : (BitVec.ofNat 8 received + 1).toNat = received + 1 := by
    rw [count_succ, BitVec.toNat_ofNat]
    exact Nat.mod_eq_of_lt (by omega)
  have written : can.write byte =
      if length.toNat + 4 < received + 1 then
        some (ret, { can with
          rxPtr := 0
          state := .init
          status := can.status &&& ~~~ BitVec.twoPow 8 no })
      else some (ret, { can with
        rxPtr := BitVec.ofNat 8 received + 1 }) := by
    have read : can.write byte = can.readRxBuf no byte := by
      rw [Can.write, here]
    rw [read, Can.readRxBuf, pointer, get, Option.bind_eq_bind,
      Option.bind_some]
    dsimp only
    rw [count]
  by_cases more : received + 1 < 5 + dataLength length
  · have stepped : step ⟨can, .rx no received⟩ (.byte byte) =
        some ⟨{ can with rxPtr := BitVec.ofNat 8 received + 1 },
          .rx no (received + 1)⟩ := by
      rw [step_byte, written, if_neg (by omega)]
      dsimp only [Option.map, Awaiting.next]
      rw [if_pos more]
    have proper : received + 1 ≤ 12 := by omega
    exact exact_of_admits stepped
      (fun ends => absurd more (Nat.not_lt.mpr ends))
      ⟨here, inStep.read.of_absent nofun nofun,
        inStep.write.of_absent nofun nofun, inStep.modify, inStep.load,
        count_succ received, proper⟩
  · have ends : 5 + dataLength length ≤ received + 1 := Nat.le_of_not_lt more
    by_cases fits : length.toNat ≤ 8
    · have same := dataLength_of_le fits
      have stepped : step ⟨can, .rx no received⟩ (.byte byte) =
          some ⟨{ can with
            rxPtr := 0
            state := .init
            status := can.status &&& ~~~ BitVec.twoPow 8 no }, .command⟩ := by
        rw [step_byte, written, if_pos (by omega)]
        dsimp only [Option.map, Awaiting.next]
        rw [if_neg more]
      exact exact_of_admits stepped (fun _ => fits)
        ⟨rfl, inStep.read.of_absent nofun nofun,
          inStep.write.of_absent nofun nofun, inStep.modify, inStep.load, rfl,
          trivial⟩
    · refine exact_of_refused (fun admits => fits (admits ends))
        fun later stepped => ?_
      rw [step_byte, written, if_neg (by omega)] at stepped
      cases stepped
      refine ⟨if_neg more, ?_⟩
      dsimp only
      rw [here]
      nofun

/-! ## Runs -/

/-- A frame fills a receive buffer only. -/
theorem enqueue_eq (frame : CanFrame) (can : Can) :
    ∃ rxBuf status, can.enqueueIncomingCanFrame frame =
      { can with rxBuf := rxBuf, status := status } := by
  unfold Can.enqueueIncomingCanFrame
  split
  · exact ⟨_, _, rfl⟩
  · split <;> exact ⟨_, _, rfl⟩

theorem exact_frame {awaiting : Awaiting} (frame : CanFrame)
    (inStep : InStep ⟨can, awaiting⟩) :
    Exact ⟨can, awaiting⟩ (.frame frame) := by
  obtain ⟨rxBuf, status, enqueued⟩ := enqueue_eq frame can
  have stepped : step ⟨can, awaiting⟩ (.frame frame) =
      some ⟨{ can with rxBuf := rxBuf, status := status }, awaiting⟩ := by
    rw [step, Can.step, enqueued]
    rfl
  have proper : awaiting.Proper { can with rxBuf := rxBuf, status := status } := by
    have proper := inStep.proper
    cases awaiting <;> exact proper
  exact exact_of_admits stepped trivial
    ⟨inStep.state, inStep.read, inStep.write, inStep.modify, inStep.load,
      inStep.rx, proper⟩

theorem exact_of_inStep {session : Session} (inStep : session.InStep)
    (event : Event) : session.Exact event := by
  obtain ⟨can, awaiting⟩ := session
  cases event with
  | frame frame => exact exact_frame frame inStep
  | byte byte =>
      cases awaiting with
      | command => exact exact_command inStep
      | readAddress => exact exact_readAddress inStep
      | readData => exact exact_readData inStep
      | writeAddress => exact exact_writeAddress inStep
      | writeData => exact exact_writeData inStep
      | bitmodAddress => exact exact_bitmodAddress inStep
      | bitmodMask => exact exact_bitmodMask inStep
      | bitmodData => exact exact_bitmodData inStep
      | txId no received => exact exact_txId inStep
      | txLength no => exact exact_txLength inStep
      | txPayload no received prescribed => exact exact_txPayload inStep
      | rx no received => exact exact_rx inStep
      | status => exact exact_status inStep
      | rxStatus => exact exact_rxStatus inStep

/-- The controller after its constructor, before the first command. -/
def boot (registers : Fin (mcpRxb1Sidh + 1) → Byte)
    (txBuf : Fin 3 → McpFrame) (rxBuf : Fin 2 → McpFrame) : Session :=
  ⟨.boot registers txBuf rxBuf, .command⟩

theorem inStep_boot (registers : Fin (mcpRxb1Sidh + 1) → Byte)
    (txBuf : Fin 3 → McpFrame) (rxBuf : Fin 2 → McpFrame) :
    (boot registers txBuf rxBuf).InStep :=
  ⟨rfl, .none nofun, .none nofun, rfl, rfl, rfl, trivial⟩

/-- Along any run, every index is in range and every command that has got its
operands leaves the controller ready exactly if all bytes are admitted. -/
theorem safe_iff_admits (registers : Fin (mcpRxb1Sidh + 1) → Byte)
    (txBuf : Fin 3 → McpFrame) (rxBuf : Fin 2 → McpFrame)
    (events : List Event) :
    EveryEvent Steps Safe events (boot registers txBuf rxBuf) ↔
      EveryEvent Steps Admits events (boot registers txBuf rxBuf) := by
  refine everyEvent_iff ?_ ?_ (inStep_boot registers txBuf rxBuf)
  · intro session event inStep
    exact (exact_of_inStep inStep event).safe_iff
  · intro session event later inStep safe stepped
    have exact_ := exact_of_inStep inStep event
    exact exact_.kept later (exact_.safe_iff.mp safe) stepped

/-- A bit of a register that does not exist is modified. -/
def modifyBeyond : List Event :=
  [.byte mcpBitmod, .byte 0x72, .byte 0xff, .byte 0x01]

theorem not_safe : ¬ ∀ registers txBuf rxBuf events,
    EveryEvent Steps Safe events (boot registers txBuf rxBuf) := by
  intro every
  have run := every (fun _ => 0) (fun _ => ⟨fun _ => 0⟩)
    (fun _ => ⟨fun _ => 0⟩) modifyBeyond
  obtain ⟨⟨later, stepped, _⟩, _⟩ := ((run.2 _ rfl).2 _ rfl).2 _ rfl
  have stuck : none = some later := stepped
  cases stuck

end Session

end Mcp2515

end RiscvVp
