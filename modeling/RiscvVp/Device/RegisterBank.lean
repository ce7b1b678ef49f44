import RiscvVp.Bits.BitField
import RiscvVp.Bits.Bytes
import Mathlib.Logic.Function.Basic

/-!
# Register banks

`tlm_map.h`: a bank of registers finds the register that a transaction is for, and
gives its handler the value that will be assigned and a function that performs the
access.
-/

namespace RiscvVp

namespace TlmMap

open Bits Storage

abbrev Byte : Type := BitVec 8

abbrev Word : Type := BitVec (8 * 4)

/-- Where the value of a register is kept. -/
abbrev Pointer : Type := ℕ

/-- `tlm_command` -/
inductive Command : Type
  | read
  | write
  | ignore
  deriving DecidableEq, Repr

/-- `tlm_generic_payload`, without the data. -/
structure Payload where
  command : Command
  address : BitVec 64
  dataLength : BitVec 32
  deriving DecidableEq, Repr

/-- The registers of the peripheral, and the memory of the host from the data
pointer of the transaction on. -/
structure State where
  registers : Pointer → Word
  data : ℕ → Byte

inductive Fault : Type
  | assertion
  /-- "unsupported TLM command detected" -/
  | unsupportedCommand
  /-- "access of unmapped address (local TLM router)", with the name of the router
  and the address -/
  | unmappedAddress (name : String) (address : BitVec 64)
  deriving DecidableEq, Repr

structure AccessMode where
  allowRead : Bool := true
  allowWrite : Bool := true
  deriving DecidableEq, Repr

/-- The two assertions on the mode. -/
def AccessMode.allows (mode : AccessMode) (command : Command) : Prop :=
  (mode.allowRead = true ∨ command ≠ .read) ∧
    (mode.allowWrite = true ∨ command ≠ .write)

instance (mode : AccessMode) (command : Command) :
    Decidable (mode.allows command) :=
  inferInstanceAs (Decidable (_ ∧ _))

/-- `reg_mapping_t` -/
structure RegMapping where
  addr : BitVec 64
  vptr : Pointer
  mode : AccessMode := {}
  mask : Word := 0xffffffff
  deriving DecidableEq, Repr

namespace RegMapping

def value (r : RegMapping) (state : State) : Word := state.registers r.vptr

def busWrite (r : RegMapping) (newValue : Word) (state : State) :
    Except Fault State :=
  if r.mode.allowWrite then
    .ok { state with
      registers := Function.update state.registers r.vptr (newValue &&& r.mask) }
  else .error .assertion

def busRead (r : RegMapping) (state : State) : Except Fault Word :=
  if r.mode.allowRead then .ok (state.registers r.vptr) else .error .assertion

/-- The function `fn` of `try_handle`. -/
def fn (r : RegMapping) (trans : Payload) (state : State) :
    Except Fault State :=
  let off := (trans.address % 4).toNat
  match trans.command with
  | .read => do
      let n ← r.busRead state
      return { state with
        data := overwrite state.data 0 trans.dataLength.toNat fun index =>
          byte n (off + index) }
  | .write =>
      let n := r.value state
      r.busWrite (copyInto n off trans.dataLength.toNat state.data) state
  | .ignore => .error .unsupportedCommand

end RegMapping

/-- `register_access_t` -/
structure RegisterAccess where
  read : Bool
  write : Bool
  vptr : Pointer
  nv : Word
  fn : State → Except Fault State
  addr : BitVec 64

/-- `RegisterMapping`; `add_register_bank` asserts that no two registers have one
address. -/
structure RegisterMapping where
  addrToReg : List RegMapping
  distinct : (addrToReg.map RegMapping.addr).Nodup

namespace RegisterMapping

/-- The register that an address is clamped to. -/
def find (bank : RegisterMapping) (address : BitVec 64) : Option RegMapping :=
  bank.addrToReg.find? fun r => r.addr = address - address % 4

/-- The new value that `try_handle` announces: the first four bytes at the data
pointer. -/
def announced (trans : Payload) (state : State) : Word :=
  if trans.command = .write then ofBytes 4 state.data else 0

/-- `try_handle` up to the call of the handler; `none` when no register has the
address. -/
def access (bank : RegisterMapping) (trans : Payload) (state : State) :
    Except Fault (Option RegisterAccess) :=
  match bank.find trans.address with
  | none => .ok none
  | some r =>
      if ¬ trans.dataLength.setWidth 64 + trans.address % 4 ≤ 4 then
        .error .assertion
      else if ¬ (trans.command = .read ∨ trans.command = .write) then
        .error .assertion
      else if ¬ r.mode.allows trans.command then .error .assertion
      else .ok (some
        { read := trans.command = .read
          write := trans.command = .write
          vptr := r.vptr
          nv := announced trans state
          fn := r.fn trans
          addr := trans.address })

end RegisterMapping

/-! ## What an access is to do -/

/-- The value of a register after a write, before the mask. -/
def written (trans : Payload) (old : Word) (data : ℕ → Byte) : Word :=
  copyInto old (trans.address % 4).toNat trans.dataLength.toNat data

/-- A write announces the value that it assigns and changes the bits that the mask
allows; a read returns the addressed bytes and changes nothing. -/
def Faithful (bank : RegisterMapping) (trans : Payload) (r : RegMapping)
    (state : State) : Prop :=
  ∃ access, bank.access trans state = .ok (some access) ∧
    match trans.command with
    | .read => access.fn state = .ok { state with
        data := overwrite state.data 0 trans.dataLength.toNat fun index =>
          byte (r.value state) ((trans.address % 4).toNat + index) }
    | .write =>
        access.nv = written trans (r.value state) state.data ∧
          access.fn state = .ok { state with
            registers := Function.update state.registers r.vptr
              (writeMasked (r.value state)
                (written trans (r.value state) state.data) r.mask) }
    | .ignore => False

/-! ## The accesses of a bank -/

section Access

variable {bank : RegisterMapping} {trans : Payload} {r : RegMapping}
  {state : State}

/-- The assertions hold for an access that stays within the register. -/
theorem access_eq (found : bank.find trans.address = some r)
    (within : (trans.address % 4).toNat + trans.dataLength.toNat ≤ 4)
    (command : trans.command = .read ∨ trans.command = .write)
    (allowed : r.mode.allows trans.command) :
    bank.access trans state = .ok (some
      { read := trans.command = .read
        write := trans.command = .write
        vptr := r.vptr
        nv := RegisterMapping.announced trans state
        fn := r.fn trans
        addr := trans.address }) := by
  have inside : trans.dataLength.setWidth 64 + trans.address % 4 ≤ 4 := by
    have four : (4 : BitVec 64).toNat = 4 := rfl
    rw [BitVec.le_def, BitVec.toNat_add, BitVec.toNat_setWidth, four]
    omega
  rw [RegisterMapping.access, found]
  simp only [inside, command, allowed, not_true_eq_false, if_false]

/-- An access that is given to the handler has passed the assertions. -/
theorem access_some {access : RegisterAccess}
    (accessed : bank.access trans state = .ok (some access)) :
    ∃ r, bank.find trans.address = some r ∧ r.mode.allows trans.command ∧
      (trans.command = .read ∨ trans.command = .write) ∧
      access =
        { read := trans.command = .read
          write := trans.command = .write
          vptr := r.vptr
          nv := RegisterMapping.announced trans state
          fn := r.fn trans
          addr := trans.address } := by
  rw [RegisterMapping.access] at accessed
  split at accessed
  next => cases accessed
  next r found =>
    split at accessed
    next => cases accessed
    split at accessed
    next => cases accessed
    next command =>
      split at accessed
      next => cases accessed
      next allowed =>
        exact ⟨r, found, not_not.1 allowed, not_not.1 command,
          (Option.some.inj (Except.ok.inj accessed)).symm⟩

theorem fn_read (reads : trans.command = .read)
    (allowed : r.mode.allows trans.command) :
    r.fn trans state = .ok { state with
      data := overwrite state.data 0 trans.dataLength.toNat fun index =>
        byte (r.value state) ((trans.address % 4).toNat + index) } := by
  have readable : r.mode.allowRead = true := by
    rcases allowed.1 with readable | other
    · exact readable
    · exact absurd reads other
  simp only [RegMapping.fn, reads, RegMapping.busRead, readable, if_true]
  rfl

theorem fn_write (writes : trans.command = .write)
    (allowed : r.mode.allows trans.command) :
    r.fn trans state = .ok { state with
      registers := Function.update state.registers r.vptr
        (written trans (r.value state) state.data &&& r.mask) } := by
  have writable : r.mode.allowWrite = true := by
    rcases allowed.2 with writable | other
    · exact writable
    · exact absurd writes other
  simp only [RegMapping.fn, writes, RegMapping.busWrite, writable, if_true]
  rfl

/-- The bits outside the mask are cleared, which leaves them as they were when
they were clear. -/
theorem and_mask_eq_writeMasked_iff {old mask : Word} (value : Word) :
    value &&& mask = writeMasked old value mask ↔ old &&& ~~~mask = 0 := by
  constructor
  · intro same
    apply BitVec.eq_of_getLsbD_eq
    intro bit below
    have bits := congrArg (fun word => word.getLsbD bit) same
    simp only [getLsbD_writeMasked, BitVec.getLsbD_and] at bits
    rw [BitVec.getLsbD_and, BitVec.getLsbD_not]
    refine Eq.trans ?_ BitVec.getLsbD_zero.symm
    by_cases selected : mask.getLsbD bit
    · simp [selected]
    · simp only [selected, Bool.and_false, Bool.false_eq_true, if_false] at bits
      simp [← bits]
  · intro clear
    rw [writeMasked, clear]
    exact BitVec.zero_or.symm

/-- An announced value is right for whatever stands behind the data exactly when
the whole register is written. -/
theorem announced_iff {registers : Pointer → Word} (payload : ℕ → Byte)
    (writes : trans.command = .write)
    (within : (trans.address % 4).toNat + trans.dataLength.toNat ≤ 4) :
    (∀ data, (∀ index < trans.dataLength.toNat, data index = payload index) →
      RegisterMapping.announced trans ⟨registers, data⟩ =
        written trans (r.value ⟨registers, data⟩) data) ↔
      trans.dataLength.toNat = 4 := by
  have offBelow : (trans.address % 4).toNat < 4 := by
    rw [BitVec.toNat_umod]
    exact Nat.mod_lt _ (by decide)
  simp only [RegisterMapping.announced, writes, if_true, written, RegMapping.value]
  generalize registers r.vptr = old
  generalize trans.dataLength.toNat = length at *
  generalize (trans.address % 4).toNat = off at *
  constructor
  · intro right
    by_contra partly
    -- The last byte is behind the data; a neighbour of the right one is wrong.
    have last := right
      (fun index => if index < length then payload index
        else overwrite (byte old) off length payload 3 + 1)
      (fun index below => if_pos below)
    have lastByte := ofBytes_inj.1 last 3 (by decide)
    rw [if_neg (by omega)] at lastByte
    have stored : overwrite (byte old) off length (fun index =>
        if index < length then payload index
        else overwrite (byte old) off length payload 3 + 1) 3 =
          overwrite (byte old) off length payload 3 := by
      rcases Nat.lt_or_ge 3 (off + length) with inside | outside
      · obtain ⟨index, place⟩ := Nat.exists_eq_add_of_le (show off ≤ 3 by omega)
        have indexBelow : index < length := by omega
        rw [place, overwrite_inside indexBelow, overwrite_inside indexBelow,
          if_pos indexBelow]
      · rw [overwrite_outside (Or.inr outside), overwrite_outside (Or.inr outside)]
    rw [stored] at lastByte
    have different := congrArg BitVec.toNat lastByte
    rw [BitVec.toNat_add] at different
    have bounded := (overwrite (byte old) off length payload 3).isLt
    have one : (1 : BitVec 8).toNat = 1 := rfl
    omega
  · rintro rfl data -
    have start : off = 0 := by omega
    rw [start, copyInto_whole]

/-- A read is faithful. -/
theorem faithful_of_read (found : bank.find trans.address = some r)
    (within : (trans.address % 4).toNat + trans.dataLength.toNat ≤ 4)
    (reads : trans.command = .read) (allowed : r.mode.allows trans.command) :
    Faithful bank trans r state := by
  refine ⟨_, access_eq found within (Or.inl reads) allowed, ?_⟩
  simp only [reads]
  exact fn_read reads allowed

/-- A write is faithful when it announces the value that it assigns and the
register has no bits outside its mask. -/
theorem faithful_write_iff (found : bank.find trans.address = some r)
    (within : (trans.address % 4).toNat + trans.dataLength.toNat ≤ 4)
    (writes : trans.command = .write) (allowed : r.mode.allows trans.command) :
    Faithful bank trans r state ↔
      RegisterMapping.announced trans state =
          written trans (r.value state) state.data ∧
        r.value state &&& ~~~r.mask = 0 := by
  have performed := @fn_write trans r state writes allowed
  have accessed := @access_eq bank trans r state found within (Or.inr writes) allowed
  rw [Faithful, ← and_mask_eq_writeMasked_iff
    (written trans (r.value state) state.data)]
  simp only [accessed, writes]
  constructor
  · rintro ⟨access, same, announced, wrote⟩
    obtain rfl := Option.some.inj (Except.ok.inj same)
    refine ⟨announced, ?_⟩
    have states := Except.ok.inj (performed.symm.trans wrote)
    have values := congrArg (fun after => State.registers after r.vptr) states
    simpa using values
  · rintro ⟨announced, masked⟩
    refine ⟨_, rfl, announced, performed.trans ?_⟩
    rw [masked]

/-- Reads are faithful; a write is faithful, whatever stands behind its data,
exactly when it writes the whole of a register without bits outside its mask. -/
theorem faithful_iff (found : bank.find trans.address = some r)
    (within : (trans.address % 4).toNat + trans.dataLength.toNat ≤ 4)
    (command : trans.command = .read ∨ trans.command = .write)
    (allowed : r.mode.allows trans.command)
    (registers : Pointer → Word) (payload : ℕ → Byte) :
    (∀ data, (∀ index < trans.dataLength.toNat, data index = payload index) →
      Faithful bank trans r ⟨registers, data⟩) ↔
      trans.command = .read ∨
        (trans.dataLength = 4 ∧ registers r.vptr &&& ~~~r.mask = 0) := by
  rcases command with reads | writes
  · refine iff_of_true (fun data _ => ?_) (Or.inl reads)
    exact faithful_of_read found within reads allowed
  have notRead : trans.command ≠ .read := by rw [writes]; decide
  have whole_iff : trans.dataLength = 4 ↔ trans.dataLength.toNat = 4 :=
    BitVec.toNat_inj.symm
  rw [whole_iff, ← @announced_iff _ r registers payload writes within]
  simp only [faithful_write_iff found within writes allowed, notRead, false_or]
  constructor
  · intro both
    exact ⟨fun data agrees => (both data agrees).1,
      (both payload fun _ _ => rfl).2⟩
  · rintro ⟨announced, clear⟩ data agrees
    exact ⟨announced data agrees, clear⟩

end Access

def scaler : RegMapping where
  addr := 0x80
  vptr := 0

def scalerBank : RegisterMapping where
  addrToReg := [scaler]
  distinct := List.pairwise_singleton _ _

theorem faithful_scaler :
    Faithful scalerBank ⟨.write, 0x80, 4⟩ scaler
      ⟨fun _ => 0x19, fun _ => 0x32⟩ := by
  have faithful := (@faithful_iff scalerBank ⟨.write, 0x80, 4⟩ scaler (by decide)
    (by decide) (Or.inr rfl) (by decide) (fun _ => 0x19) fun _ => 0x32).2
  exact faithful (Or.inr ⟨rfl, by decide⟩) _ fun _ _ => rfl

/-- A write of one byte announces what stands behind the byte. -/
theorem not_faithful_byte :
    ¬ ∀ (bank : RegisterMapping) (trans : Payload) (r : RegMapping)
      (state : State), bank.find trans.address = some r →
        (trans.dataLength = 1 ∨ trans.dataLength = 2 ∨ trans.dataLength = 4) →
        (trans.address % 4).toNat + trans.dataLength.toNat ≤ 4 →
        (trans.command = .read ∨ trans.command = .write) →
        r.mode.allows trans.command → Faithful bank trans r state := by
  intro faithful
  obtain ⟨access, accessed, announced, -⟩ :=
    faithful scalerBank ⟨.write, 0x80, 1⟩ scaler ⟨fun _ => 0x19, fun _ => 0x32⟩
      (by decide) (Or.inl rfl) (by decide) (Or.inr rfl) (by decide)
  obtain rfl := Option.some.inj (Except.ok.inj accessed)
  revert announced
  decide

end TlmMap

end RiscvVp
