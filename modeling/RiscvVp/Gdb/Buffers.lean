import Mathlib.Data.Nat.Basic
import RiscvVp.Gdb.Protocol

/-!
# The buffers of the decoders

`gdb_decode_runlen` and `gdb_unescape` with the arrays that they write to.  They
compute what the functions on lists do, and do not leave their arrays.
-/

namespace RiscvVp

namespace Gdb

/-! ## Arrays -/

/-- Why a decoder has no result. -/
inductive Halt : Type
  | fault (fault : Fault)
  /-- a write past the end of the array -/
  | overrun
  deriving DecidableEq, Repr

/-- An array, and what has been written to it from its start on. -/
structure Buffer : Type where
  capacity : ℕ
  bytes : List Byte
  deriving DecidableEq, Repr

namespace Buffer

/-- `xmalloc` -/
def malloc (size : ℕ) : Buffer where
  capacity := size
  bytes := []

/-- `xrealloc` -/
def realloc (buffer : Buffer) (size : ℕ) : Buffer :=
  { buffer with capacity := size }

/-- `ndat[nlen++] = byte` -/
def put (buffer : Buffer) (byte : Byte) : Except Halt Buffer :=
  if buffer.bytes.length < buffer.capacity then
    .ok { buffer with bytes := buffer.bytes ++ [byte] }
  else .error .overrun

/-- `shrink to actual size`, and the terminator. -/
def terminate (buffer : Buffer) : Except Halt (List Byte) := do
  let _ ← (buffer.realloc (buffer.bytes.length + 1)).put 0
  return buffer.bytes

theorem put_of_lt {buffer : Buffer} {byte : Byte}
    (room : buffer.bytes.length < buffer.capacity) :
    buffer.put byte = .ok { buffer with bytes := buffer.bytes ++ [byte] } :=
  if_pos room

theorem terminate_eq (buffer : Buffer) :
    buffer.terminate = .ok buffer.bytes := by
  rw [terminate, put_of_lt (Nat.lt_succ_self _)]
  rfl

end Buffer

/-! ## Runs -/

/-- `ndat` and `nrem` -/
structure Filling : Type where
  buffer : Buffer
  nrem : BitVec 64
  deriving DecidableEq, Repr

namespace Filling

/-- `GDB_RUNLEN_STEP` -/
def step : ℕ := 32

/-- `nrem--`, with the larger array when nothing has remained. -/
def reserve (filling : Filling) : Filling :=
  if filling.nrem = 0 then
    { buffer := filling.buffer.realloc (filling.buffer.bytes.length + step)
      nrem := filling.nrem - 1 + BitVec.ofNat 64 step }
  else { filling with nrem := filling.nrem - 1 }

/-- The body of the inner loop. -/
def store (filling : Filling) (byte : Byte) : Except Halt Filling := do
  let reserved := filling.reserve
  (xassert (0 ≤ byte.toInt)).mapError Halt.fault
  let buffer ← reserved.buffer.put byte
  return { reserved with buffer }

/-- The inner loop. -/
def storeMany (byte : Byte) : ℕ → Filling → Except Halt Filling
  | 0, filling => .ok filling
  | count + 1, filling => do storeMany byte count (← filling.store byte)

/-- `nrem` places are left at least. -/
def Room (filling : Filling) : Prop :=
  filling.buffer.bytes.length + filling.nrem.toNat ≤ filling.buffer.capacity

theorem reserve_bytes (filling : Filling) :
    filling.reserve.buffer.bytes = filling.buffer.bytes := by
  unfold reserve
  split <;> rfl

/-- A place for the next character, and `nrem` after it. -/
theorem Room.reserve {filling : Filling} (room : filling.Room) :
    filling.buffer.bytes.length + 1 + filling.reserve.nrem.toNat ≤
      filling.reserve.buffer.capacity := by
  unfold Room at room
  by_cases spent : filling.nrem = 0
  · rw [Filling.reserve, if_pos spent, spent]
    -- `nrem` wraps around, and back.
    have left : ((0 : BitVec 64) - 1 + BitVec.ofNat 64 step).toNat = 31 := by
      decide
    rw [left]
    exact Nat.le_refl _
  · rw [Filling.reserve, if_neg spent]
    have positive : 0 < filling.nrem.toNat := by
      rw [Nat.pos_iff_ne_zero]
      exact fun zero => spent (BitVec.eq_of_toNat_eq zero)
    have less : (filling.nrem - 1).toNat = filling.nrem.toNat - 1 := by
      have bound := filling.nrem.isLt
      rw [BitVec.toNat_sub]
      change (2 ^ 64 - 1 + filling.nrem.toNat) % 2 ^ 64 = _
      omega
    simp only [less]
    omega

theorem Room.store {filling : Filling} (room : filling.Room) {byte : Byte}
    (ordinary : 0 ≤ byte.toInt) :
    ∃ filled : Filling, filling.store byte = .ok filled ∧ filled.Room ∧
      filled.buffer.bytes = filling.buffer.bytes ++ [byte] := by
  have place := room.reserve
  have here : filling.reserve.buffer.bytes.length <
      filling.reserve.buffer.capacity := by
    rw [reserve_bytes]
    omega
  refine ⟨{ filling.reserve with
    buffer := { filling.reserve.buffer with
      bytes := filling.reserve.buffer.bytes ++ [byte] } }, ?_, ?_, ?_⟩
  · rw [Filling.store, xassert, if_pos (decide_eq_true ordinary),
      Buffer.put_of_lt here]
    rfl
  · unfold Room
    simp only [List.length_append, List.length_singleton, reserve_bytes]
    exact place
  · simp only [reserve_bytes]

theorem Room.storeMany {filling : Filling} (room : filling.Room) {byte : Byte}
    (ordinary : 0 ≤ byte.toInt) (count : ℕ) :
    ∃ filled : Filling, filling.storeMany byte count = .ok filled ∧
      filled.Room ∧ filled.buffer.bytes =
        filling.buffer.bytes ++ List.replicate count byte := by
  induction count generalizing filling with
  | zero => exact ⟨filling, rfl, room, by simp⟩
  | succ count inductionHypothesis =>
      obtain ⟨stored, equation, kept, bytes⟩ := room.store ordinary
      obtain ⟨filled, filledEquation, filledRoom, filledBytes⟩ :=
        inductionHypothesis kept
      refine ⟨filled, ?_, filledRoom, ?_⟩
      · rw [Filling.storeMany, equation]
        exact filledEquation
      · rw [filledBytes, bytes, List.append_assoc, List.replicate_succ,
          List.singleton_append]

end Filling

/-- The state of the loop of `gdb_decode_runlen`, with its array. -/
structure Scan : Type where
  previous : Option Byte
  runlen : Option Byte
  filling : Filling
  deriving DecidableEq, Repr

namespace Scan

/-- The state without the array. -/
def state (scan : Scan) : Runlen where
  previous := scan.previous
  runlen := scan.runlen
  output := scan.filling.buffer.bytes

/-- One round of `gdb_decode_runlen`. -/
def next (scan : Scan) (byte : Byte) : Except Halt Scan :=
  if byte = ascii '*' then
    match scan.previous with
    | none => .error (.fault .ebadmsg)
    | some previous =>
        .ok { scan with
          previous := some byte
          runlen := if previous = 0xff then none else some previous }
  else
    let rcount : ℤ := match scan.runlen with
      | none => 1
      | some _ => byte.toInt - 29
    if rcount ≤ 0 then .error (.fault .ebadmsg)
    else do
      let filling ←
        scan.filling.storeMany (scan.runlen.getD byte) rcount.toNat
      return ⟨some byte, none, filling⟩

/-- A round does what the round without the array does. -/
inductive Follows : Except Halt Scan → Except Fault Runlen → Prop
  | ok (scan : Scan) (room : scan.filling.Room) :
      Follows (.ok scan) (.ok scan.state)
  | error (fault : Fault) : Follows (.error (.fault fault)) (.error fault)

theorem store_negative {filling : Filling} {byte : Byte}
    (negative : ¬ 0 ≤ byte.toInt) (count : ℕ) :
    filling.storeMany byte (count + 1) = .error (.fault .assertion) := by
  rw [Filling.storeMany, Filling.store, xassert,
    if_neg (by simpa using negative)]
  rfl

/-- The inner loop, after the assertion of its first round. -/
theorem follows_storeMany {filling : Filling} (room : filling.Room)
    (byte last : Byte) {count : ℕ} (positive : 0 < count) :
    Follows
      (do
        let filling ← filling.storeMany byte count
        return ⟨some last, none, filling⟩)
      (do
        xassert (0 ≤ byte.toInt)
        return ⟨some last, none,
          filling.buffer.bytes ++ List.replicate count byte⟩) := by
  by_cases ordinary : 0 ≤ byte.toInt
  · obtain ⟨filled, equation, filledRoom, bytes⟩ :=
      room.storeMany ordinary count
    rw [equation, xassert, if_pos (decide_eq_true ordinary), ← bytes]
    exact .ok ⟨some last, none, filled⟩ filledRoom
  · obtain ⟨rest, rfl⟩ := Nat.exists_eq_succ_of_ne_zero
      (Nat.pos_iff_ne_zero.mp positive)
    rw [store_negative ordinary, xassert, if_neg (by simpa using ordinary)]
    exact .error _

theorem follows_next {scan : Scan} (room : scan.filling.Room) (byte : Byte) :
    Follows (scan.next byte) (scan.state.next byte) := by
  obtain ⟨previous, runlen, filling⟩ := scan
  by_cases star : byte = ascii '*'
  · rw [next, Runlen.next, if_pos star, if_pos star]
    cases previous with
    | none => exact .error _
    | some previous => exact .ok ⟨_, _, filling⟩ room
  · rw [next, Runlen.next, if_neg star, if_neg star]
    cases runlen with
    | none => exact follows_storeMany room byte byte Nat.one_pos
    | some runlen =>
        by_cases few : byte.toInt - 29 ≤ 0
        · simp only [state, if_pos few]
          exact .error _
        · simp only [state, if_neg few]
          have positive : 0 < (byte.toInt - 29).toNat := by omega
          exact follows_storeMany room runlen byte positive

theorem follows_foldlM {scan : Scan} (room : scan.filling.Room)
    (data : List Byte) :
    Follows (data.foldlM next scan) (data.foldlM Runlen.next scan.state) := by
  induction data generalizing scan with
  | nil => exact .ok scan room
  | cons byte rest inductionHypothesis =>
      have round := follows_next room byte
      rw [List.foldlM_cons, List.foldlM_cons]
      generalize scan.next byte = first at round ⊢
      generalize scan.state.next byte = second at round ⊢
      cases round with
      | ok _ kept => exact inductionHypothesis kept
      | error fault => exact .error fault

end Scan

namespace Buffered

/-- `gdb_decode_runlen`, with its array. -/
def gdbDecodeRunlen (data : List Byte) : Except Halt (List Byte) := do
  let filling : Filling :=
    ⟨Buffer.malloc data.length, BitVec.ofNat 64 data.length⟩
  let final ← data.foldlM Scan.next ⟨none, none, filling⟩
  final.filling.buffer.terminate

/-- The loop of `gdb_unescape`, with its array. -/
def unescapeFrom : Bool → Buffer → List Byte → Except Halt Buffer
  | _, buffer, [] => .ok buffer
  | esc, buffer, byte :: rest =>
      if byte = escapeChar then unescapeFrom true buffer rest
      else do
        let stored ← buffer.put (if esc then byte ^^^ escapeByte else byte)
        unescapeFrom false stored rest

/-- `gdb_unescape`, with its array. -/
def gdbUnescape (data : List Byte) : Except Halt (List Byte) := do
  let buffer ← unescapeFrom false (Buffer.malloc data.length) data
  let written ← buffer.terminate
  return written.takeWhile fun byte => byte != 0

/-- The array is not left. -/
theorem gdbDecodeRunlen_eq (data : List Byte) :
    gdbDecodeRunlen data = (Gdb.gdbDecodeRunlen data).mapError Halt.fault := by
  have room : Filling.Room
      ⟨Buffer.malloc data.length, BitVec.ofNat 64 data.length⟩ := by
    change 0 + (BitVec.ofNat 64 data.length).toNat ≤ data.length
    rw [BitVec.toNat_ofNat, Nat.zero_add]
    exact Nat.mod_le _ _
  have follows : Scan.Follows
      (data.foldlM Scan.next ⟨none, none,
        ⟨Buffer.malloc data.length, BitVec.ofNat 64 data.length⟩⟩)
      (data.foldlM Runlen.next ⟨none, none, []⟩) :=
    Scan.follows_foldlM room data
  rw [gdbDecodeRunlen, Gdb.gdbDecodeRunlen]
  generalize data.foldlM Runlen.next ⟨none, none, []⟩ = second at follows ⊢
  generalize data.foldlM Scan.next _ = first at follows ⊢
  cases follows with
  | ok _ _ => exact Buffer.terminate_eq _
  | error fault => rfl

/-- A character of the input for each of the output. -/
theorem unescapeFrom_eq (esc : Bool) {buffer : Buffer} {data : List Byte}
    (room : buffer.bytes.length + data.length ≤ buffer.capacity) :
    unescapeFrom esc buffer data =
      .ok { buffer with
        bytes := buffer.bytes ++ Gdb.unescapeFrom esc data } := by
  induction data generalizing esc buffer with
  | nil => simp [unescapeFrom, Gdb.unescapeFrom]
  | cons byte rest inductionHypothesis =>
      rw [List.length_cons] at room
      rw [unescapeFrom, Gdb.unescapeFrom]
      by_cases escape : byte = escapeChar
      · rw [if_pos escape, if_pos escape]
        exact inductionHypothesis true (by omega)
      · have place : buffer.bytes.length < buffer.capacity := by omega
        rw [if_neg escape, if_neg escape, Buffer.put_of_lt place]
        refine (inductionHypothesis false ?_).trans ?_
        · simp only [List.length_append, List.length_singleton]
          omega
        · simp only [List.append_assoc, List.singleton_append]

theorem gdbUnescape_eq (data : List Byte) :
    gdbUnescape data = .ok (Gdb.gdbUnescape data) := by
  have room : (Buffer.malloc data.length).bytes.length + data.length ≤
      (Buffer.malloc data.length).capacity := Nat.le_of_eq (Nat.zero_add _)
  have written := Buffer.terminate_eq
    ⟨data.length, Gdb.unescapeFrom false data⟩
  rw [gdbUnescape, unescapeFrom_eq false room]
  exact congrArg (· >>= fun written => pure (written.takeWhile (· != 0)))
    written

end Buffered

end Gdb

end RiscvVp
