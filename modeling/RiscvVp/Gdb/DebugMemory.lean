import Mathlib
import RiscvVp.Gdb.Stub

/-!
# Memory behind the debugger

The debug port of `SimpleBus` with a `SimpleMemory` behind it (`bus.h`,
`memory.h`), as surroundings of the packet handlers, and what
`DebugMemoryInterface` writes to it and reads back.
-/

namespace RiscvVp

namespace Gdb

open Interaction

/-! ## The bus -/

/-- `SimpleMemory`, with its array as far as `size`. -/
structure SimpleMemory where
  size : BitVec 32
  data : ℕ → Byte

structure PortMapping where
  start : BitVec 64
  stop : BitVec 64
  deriving DecidableEq, Repr

namespace PortMapping

def contains (port : PortMapping) (addr : BitVec 64) : Bool :=
  port.start ≤ addr && addr ≤ port.stop

def globalToLocal (port : PortMapping) (addr : BitVec 64) : BitVec 64 :=
  addr - port.start

end PortMapping

/-- Only memories have a debug port; that of another target transfers
nothing. -/
inductive Target : Type
  | memory (memory : SimpleMemory)
  | peripheral

structure SimpleBus (targets : ℕ) where
  ports : Fin targets → PortMapping
  isocks : Fin targets → Target

namespace SimpleMemory

/-- The assertions of `transport_dbg` and of `write_data` or `read_data`.  Where
the sum of the second wraps around, the copy leaves the array. -/
def admits (memory : SimpleMemory) (addr len : BitVec 32) : Bool :=
  addr < memory.size && addr + len ≤ memory.size &&
    addr.toNat + len.toNat ≤ memory.size.toNat

def readDbg (memory : SimpleMemory) (addr len : BitVec 32) :
    Transport len.toNat :=
  if memory.admits addr len then
    .returned false len fun i => memory.data (addr.toNat + i)
  else .assertion

/-- `memcpy` to the array -/
def memcpy (memory : SimpleMemory) (first : ℕ) (src : List Byte) :
    SimpleMemory :=
  { memory with
    data := fun place =>
      if first ≤ place ∧ place < first + src.length then
        src.getD (place - first) 0
      else memory.data place }

def writeDbg (memory : SimpleMemory) (addr : BitVec 32) (src : List Byte) :
    Transport src.length × SimpleMemory :=
  let len := BitVec.ofNat 32 src.length
  if memory.admits addr len then
    (.returned false len src.get, memory.memcpy addr.toNat src)
  else (.assertion, memory)

end SimpleMemory

namespace SimpleBus

variable {targets : ℕ}

def decode (bus : SimpleBus targets) (addr : BitVec 64) :
    Option (Fin targets) :=
  (List.finRange targets).find? fun i => (bus.ports i).contains addr

/-- The address that the target sees, where `transport_dbg` keeps it in an
`unsigned`. -/
def offset (bus : SimpleBus targets) (port : Fin targets)
    (addr : BitVec 64) : BitVec 32 :=
  ((bus.ports port).globalToLocal addr).setWidth 32

def readDbg (bus : SimpleBus targets) (addr : BitVec 64) (len : BitVec 32) :
    Transport len.toNat :=
  match bus.decode addr with
  | none => .returned true 0 fun _ => 0
  | some port =>
      match bus.isocks port with
      | .memory memory => memory.readDbg (bus.offset port addr) len
      | .peripheral => .returned false 0 fun _ => 0

def writeDbg (bus : SimpleBus targets) (addr : BitVec 64) (src : List Byte) :
    Transport src.length × SimpleBus targets :=
  match bus.decode addr with
  | none => (.returned true 0 src.get, bus)
  | some port =>
      match bus.isocks port with
      | .memory memory =>
          let written := memory.writeDbg (bus.offset port addr) src
          (written.1, { bus with
            isocks := Function.update bus.isocks port (.memory written.2) })
      | .peripheral => (.returned false 0 src.get, bus)

/-- The bus answers the requests for memory, and `others` those that are not
for it. -/
def handle {ι : Type} (others : ∀ request : Request ι, request.Reply) :
    (request : Request ι) → SimpleBus targets →
      request.Reply × SimpleBus targets
  | .readDbg addr len, bus => (bus.readDbg addr len, bus)
  | .writeDbg addr src, bus => bus.writeDbg addr src
  | request, bus => (others request, bus)

/-! ## Bytes of the targets -/

/-- A byte of a target's memory. -/
def byte (bus : SimpleBus targets) (port : Fin targets) (place : ℕ) :
    Option Byte :=
  match bus.isocks port with
  | .memory memory =>
      if place < memory.size.toNat then some (memory.data place) else none
  | .peripheral => none

/-- The addresses from `addr` on lie in a memory. -/
structure Within (bus : SimpleBus targets) (addr : BitVec 64) (len : ℕ)
    (port : Fin targets) (memory : SimpleMemory) : Prop where
  decoded : bus.decode addr = some port
  target : bus.isocks port = .memory memory
  starts : ((bus.ports port).globalToLocal addr).toNat < memory.size.toNat
  fits : ((bus.ports port).globalToLocal addr).toNat + len ≤
    memory.size.toNat

/-- Exactly the addressed bytes are set. -/
def Sets (before after : SimpleBus targets) (addr : BitVec 64)
    (port : Fin targets) (bytes : List Byte) : Prop :=
  after.ports = before.ports ∧
    ∀ target place, after.byte target place =
      let first := ((before.ports port).globalToLocal addr).toNat
      if target = port ∧ first ≤ place ∧ place < first + bytes.length then
        bytes[place - first]?
      else before.byte target place

variable {bus : SimpleBus targets} {addr : BitVec 64} {port : Fin targets}
  {memory : SimpleMemory}

theorem Within.offset_toNat {len : ℕ} (within : bus.Within addr len port memory) :
    (bus.offset port addr).toNat =
      ((bus.ports port).globalToLocal addr).toNat := by
  have starts := within.starts
  have size := memory.size.isLt
  simp only [offset, BitVec.toNat_setWidth]
  exact Nat.mod_eq_of_lt (by omega)

theorem Within.admits {len : BitVec 32}
    (within : bus.Within addr len.toNat port memory) :
    memory.admits (bus.offset port addr) len = true := by
  have same := within.offset_toNat
  have starts := within.starts
  have fits := within.fits
  have size := memory.size.isLt
  rw [← same] at starts fits
  have sum : (bus.offset port addr + len).toNat =
      (bus.offset port addr).toNat + len.toNat := by
    rw [BitVec.toNat_add]
    exact Nat.mod_eq_of_lt (by omega)
  simp only [SimpleMemory.admits, Bool.and_eq_true, decide_eq_true_eq,
    BitVec.lt_def, BitVec.le_def, sum]
  exact ⟨⟨starts, fits⟩, fits⟩

theorem Within.readDbg {len : BitVec 32}
    (within : bus.Within addr len.toNat port memory) :
    bus.readDbg addr len = .returned false len fun i =>
      memory.data (((bus.ports port).globalToLocal addr).toNat + i) := by
  simp only [SimpleBus.readDbg, within.decoded, within.target,
    SimpleMemory.readDbg, within.admits, if_true, within.offset_toNat]

theorem Within.writeDbg_fst {src : List Byte} (short : src.length < 2 ^ 32)
    (within : bus.Within addr src.length port memory) :
    (bus.writeDbg addr src).1 =
      .returned false (BitVec.ofNat 32 src.length) src.get := by
  have length : (BitVec.ofNat 32 src.length).toNat = src.length :=
    Nat.mod_eq_of_lt short
  rw [← length] at within
  simp only [SimpleBus.writeDbg, within.decoded, within.target,
    SimpleMemory.writeDbg, within.admits, if_true]

theorem Within.writeDbg_snd {src : List Byte} (short : src.length < 2 ^ 32)
    (within : bus.Within addr src.length port memory) :
    (bus.writeDbg addr src).2 = { bus with
      isocks := Function.update bus.isocks port (.memory (memory.memcpy
        ((bus.ports port).globalToLocal addr).toNat src)) } := by
  have length : (BitVec.ofNat 32 src.length).toNat = src.length :=
    Nat.mod_eq_of_lt short
  rw [← length] at within
  simp only [SimpleBus.writeDbg, within.decoded, within.target,
    SimpleMemory.writeDbg, within.admits, if_true, within.offset_toNat]

theorem Within.sets_writeDbg {src : List Byte} (short : src.length < 2 ^ 32)
    (within : bus.Within addr src.length port memory) :
    bus.Sets (bus.writeDbg addr src).2 addr port src := by
  have fits := within.fits
  rw [within.writeDbg_snd short]
  refine ⟨rfl, fun target place => ?_⟩
  by_cases here : target = port
  · subst here
    simp only [byte, Function.update_self, within.target, true_and,
      SimpleMemory.memcpy]
    by_cases addressed :
        ((bus.ports target).globalToLocal addr).toNat ≤ place ∧
          place < ((bus.ports target).globalToLocal addr).toNat + src.length
    · have inside : place - ((bus.ports target).globalToLocal addr).toNat <
          src.length := by omega
      have small : place < memory.size.toNat := by omega
      simp [addressed, small, inside]
    · simp [addressed]
  · simp only [byte, Function.update_of_ne here, here, false_and, if_false]

/-- The addresses that are written stay in the memory. -/
theorem Within.writeDbg {src : List Byte} {len : ℕ} (short : len < 2 ^ 32)
    (length : src.length = len) (within : bus.Within addr len port memory) :
    (bus.writeDbg addr src).2.Within addr len port (memory.memcpy
      ((bus.ports port).globalToLocal addr).toNat src) := by
  subst length
  rw [within.writeDbg_snd short]
  exact ⟨within.decoded, Function.update_self _ _ _, within.starts,
    within.fits⟩

theorem ofFn_memcpy (memory : SimpleMemory) (first : ℕ) {src : List Byte}
    {len : ℕ} (length : src.length = len) :
    (List.ofFn fun i : Fin len => (memory.memcpy first src).data (first + i)) =
      src := by
  subst length
  apply List.ext_getElem List.length_ofFn
  intro i _ inside
  simp [SimpleMemory.memcpy]

/-- What is set at an address says which bytes they are. -/
theorem Sets.eq {after : SimpleBus targets} {bytes others : List Byte}
    (sets : bus.Sets after addr port bytes)
    (also : bus.Sets after addr port others)
    (length : bytes.length = others.length) : bytes = others := by
  apply List.ext_getElem? 
  intro i
  by_cases inside : i < bytes.length
  · have first := sets.2 port
      (((bus.ports port).globalToLocal addr).toNat + i)
    have second := also.2 port
      (((bus.ports port).globalToLocal addr).toNat + i)
    rw [first] at second
    simpa [inside, ← length] using second
  · rw [List.getElem?_eq_none (by omega), List.getElem?_eq_none (by omega)]

end SimpleBus

/-! ## Digits -/

/-- The bytes that pairs of digits spell. -/
def spelled : List Byte → List Byte
  | first :: second :: rest =>
      BitVec.ofNat 8 (digitsValue 16 [first, second]) :: spelled rest
  | _ => []

attribute [local simp] spelled

/-- A digit in lower case. -/
def toLower (digit : Byte) : Byte :=
  if ascii 'A' ≤ digit ∧ digit ≤ ascii 'F' then
    digit - ascii 'A' + ascii 'a'
  else digit

theorem digit_facts : ∀ digit ∈ hexDigits, digitValue digit < 16 ∧
    hexDigitOf (digitValue digit) = toLower digit ∧
    (digitValue digit = 0 ↔ digit = ascii '0') := by
  decide +kernel

theorem mem_hexDigits {digit : Byte} (isDigit : isHexDigit digit = true) :
    digit ∈ hexDigits :=
  of_decide_eq_true isDigit

/-- A byte is the number that two digits write. -/
theorem toNat_spelled {first second : Byte} (isFirst : isHexDigit first = true)
    (isSecond : isHexDigit second = true) :
    (BitVec.ofNat 8 (digitsValue 16 [first, second])).toNat =
      16 * digitValue first + digitValue second := by
  have high := (digit_facts first (mem_hexDigits isFirst)).1
  have low := (digit_facts second (mem_hexDigits isSecond)).1
  simp only [digitsValue, List.foldl_cons, List.foldl_nil, BitVec.toNat_ofNat]
  omega

theorem hexByte_spelled {first second : Byte}
    (isFirst : isHexDigit first = true) (isSecond : isHexDigit second = true) :
    hexByte (BitVec.ofNat 8 (digitsValue 16 [first, second])) =
      [toLower first, toLower second] := by
  obtain ⟨high, highLower, _⟩ := digit_facts first (mem_hexDigits isFirst)
  obtain ⟨low, lowLower, _⟩ := digit_facts second (mem_hexDigits isSecond)
  have div : (16 * digitValue first + digitValue second) / 16 =
      digitValue first := by omega
  have mod : (16 * digitValue first + digitValue second) % 16 =
      digitValue second := by omega
  rw [hexByte, formatCsum, toNat_spelled isFirst isSecond, div, mod, highLower,
    lowLower]

theorem spelled_eq_zero_iff {first second : Byte}
    (isFirst : isHexDigit first = true) (isSecond : isHexDigit second = true) :
    BitVec.ofNat 8 (digitsValue 16 [first, second]) = 0 ↔
      first = ascii '0' ∧ second = ascii '0' := by
  have high := (digit_facts first (mem_hexDigits isFirst)).2.2
  have low := (digit_facts second (mem_hexDigits isSecond)).2.2
  rw [← high, ← low, ← BitVec.toNat_inj, toNat_spelled isFirst isSecond]
  change _ = 0 ↔ _
  omega

/-- Pairs of digits, one after the other. -/
theorem induction_pairs {motive : ℕ → List Byte → Prop} (nil : motive 0 [])
    (cons : ∀ count first second rest, rest.length = 2 * count →
      motive count rest → motive (count + 1) (first :: second :: rest))
    {count : ℕ} {data : List Byte} (length : data.length = 2 * count) :
    motive count data := by
  induction count generalizing data with
  | zero =>
      rw [List.length_eq_zero_iff.mp length]
      exact nil
  | succ count inductionHypothesis =>
      match data, length with
      | first :: second :: rest, length =>
          have shorter : rest.length = 2 * count := by
            simp only [List.length_cons] at length
            omega
          exact cons count first second rest shorter
            (inductionHypothesis shorter)

theorem length_spelled {count : ℕ} {data : List Byte}
    (length : data.length = 2 * count) : (spelled data).length = count := by
  refine induction_pairs
    (motive := fun count data => (spelled data).length = count) rfl ?_ length
  intro count first second rest _ inductionHypothesis
  simp [inductionHypothesis]

theorem spelled_append {count : ℕ} {data : List Byte}
    (length : data.length = 2 * count) (more : List Byte) :
    spelled (data ++ more) = spelled data ++ spelled more := by
  refine induction_pairs (motive := fun _ data =>
    spelled (data ++ more) = spelled data ++ spelled more) rfl ?_ length
  intro count first second rest _ inductionHypothesis
  simp [inductionHypothesis]

theorem flatMap_hexByte_spelled {count : ℕ} {data : List Byte}
    (digits : ∀ digit ∈ data, isHexDigit digit = true)
    (length : data.length = 2 * count) :
    (spelled data).flatMap hexByte = data.map toLower := by
  refine induction_pairs (motive := fun _ data =>
    (∀ digit ∈ data, isHexDigit digit = true) →
      (spelled data).flatMap hexByte = data.map toLower)
    (fun _ => rfl) ?_ length digits
  intro count first second rest _ inductionHypothesis digits
  have rest := inductionHypothesis fun digit member =>
    digits digit (List.mem_cons_of_mem _ (List.mem_cons_of_mem _ member))
  rw [spelled, List.flatMap_cons, rest,
    hexByte_spelled (digits first (by simp)) (digits second (by simp))]
  rfl

theorem spelled_eq_replicate_iff {count : ℕ} {data : List Byte}
    (digits : ∀ digit ∈ data, isHexDigit digit = true)
    (length : data.length = 2 * count) :
    spelled data = List.replicate count 0 ↔
      ∀ digit ∈ data, digit = ascii '0' := by
  refine induction_pairs (motive := fun count data =>
    (∀ digit ∈ data, isHexDigit digit = true) →
      (spelled data = List.replicate count 0 ↔
        ∀ digit ∈ data, digit = ascii '0')) ?_ ?_ length digits
  · intro _
    simp
  · intro count first second rest _ inductionHypothesis digits
    have rest := inductionHypothesis fun digit member =>
      digits digit (List.mem_cons_of_mem _ (List.mem_cons_of_mem _ member))
    have byte := spelled_eq_zero_iff (digits first (by simp))
      (digits second (by simp))
    simp only [spelled, List.replicate_succ, List.cons.injEq, byte, rest,
      List.forall_mem_cons, and_assoc]

/-- Two digits for each byte, and the bytes one after the other. -/
theorem spelled_eq_map {count : ℕ} {data : List Byte}
    (length : data.length = 2 * count) :
    spelled data = (List.range count).map fun j =>
      BitVec.ofNat 8 (digitsValue 16 ((data.drop (2 * j)).take 2)) := by
  refine induction_pairs (motive := fun count data =>
    spelled data = (List.range count).map fun j =>
      BitVec.ofNat 8 (digitsValue 16 ((data.drop (2 * j)).take 2)))
    rfl ?_ length
  intro count first second rest _ inductionHypothesis
  rw [spelled, inductionHypothesis, List.range_succ_eq_map, List.map_cons,
    List.map_map]
  rfl

/-- The loop of `write_memory` ends half way. -/
theorem writeBuffer_eq {count : ℕ} {data : List Byte}
    (length : data.length = 2 * count) :
    writeBuffer count data = spelled (data.take (2 * (count / 2))) ++
      List.replicate (count - count / 2) 0 := by
  have half : (data.take (2 * (count / 2))).length = 2 * (count / 2) := by
    rw [List.length_take]
    omega
  have split : List.range count = List.range (count / 2) ++
      (List.range (count - count / 2)).map (count / 2 + ·) := by
    rw [← List.range_add]
    congr 1
    omega
  rw [writeBuffer, split, List.map_append, spelled_eq_map half]
  congr 1
  · apply List.map_congr_left
    intro j member
    have small : j < count / 2 := List.mem_range.mp member
    have decoded : 2 * j + 1 < count := by omega
    rw [if_pos decoded, List.drop_take, List.take_take]
    congr 3
    omega
  · rw [List.map_map, List.eq_replicate_iff]
    refine ⟨by simp, ?_⟩
    intro byte member
    obtain ⟨j, _, rfl⟩ := List.mem_map.mp member
    have past : ¬ 2 * (count / 2 + j) + 1 < count := by omega
    exact if_neg past

/-- The buffer holds what the digits spell if and only if the second half of
the bytes is zero. -/
theorem writeBuffer_eq_spelled_iff {count : ℕ} {data : List Byte}
    (digits : ∀ digit ∈ data, isHexDigit digit = true)
    (length : data.length = 2 * count) :
    writeBuffer count data = spelled data ↔
      ∀ digit ∈ data.drop (2 * (count / 2)), digit = ascii '0' := by
  have first : (data.take (2 * (count / 2))).length = 2 * (count / 2) := by
    rw [List.length_take]
    omega
  have second : (data.drop (2 * (count / 2))).length =
      2 * (count - count / 2) := by
    rw [List.length_drop]
    omega
  have whole : spelled data = spelled (data.take (2 * (count / 2))) ++
      spelled (data.drop (2 * (count / 2))) := by
    rw [← spelled_append first, List.take_append_drop]
  rw [writeBuffer_eq length, whole, List.append_cancel_left_eq, eq_comm]
  exact spelled_eq_replicate_iff
    (fun digit member => digits digit (List.mem_of_mem_drop member)) second

/-! ## Writing and reading back -/

section RoundTrip

variable {ι : Type} {targets : ℕ}
  (others : ∀ request : Request ι, request.Reply)
  {bus : SimpleBus targets} {start : BitVec 64} {nbytes : BitVec 32}
  {port : Fin targets} {memory : SimpleMemory}

theorem run_readDebug (within : bus.Within start nbytes.toNat port memory)
    (stub : Stub) :
    ((readDebug start nbytes : StubM ι (List Byte)) stub).run
        (SimpleBus.handle others) bus =
      (.done ((List.ofFn fun i : Fin nbytes.toNat => memory.data
        (((bus.ports port).globalToLocal start).toNat + i)).flatMap hexByte)
        stub, bus) := by
  have asked : ((readDebug start nbytes : StubM ι (List Byte)) stub).run
      (SimpleBus.handle others) bus =
      (((transacted nbytes (bus.readDbg start nbytes) : StubM ι _) >>=
        fun buffer => pure ((List.ofFn buffer).flatMap hexByte)) stub).run
          (SimpleBus.handle others) bus := rfl
  rw [asked, within.readDbg]
  simp [transacted]

theorem run_writeDebug {data : List Byte}
    (length : data.length = 2 * nbytes.toNat)
    (within : bus.Within start nbytes.toNat port memory) (stub : Stub) :
    ((writeDebug start nbytes data : StubM ι Unit) stub).run
        (SimpleBus.handle others) bus =
      (.done () stub,
        (bus.writeDbg start (writeBuffer nbytes.toNat data)).2) := by
  have buffer := length_writeBuffer nbytes.toNat data
  have even : data.length % 2 = 0 := by omega
  have half : data.length / 2 = nbytes.toNat := by omega
  rw [← buffer] at within
  have replied := within.writeDbg_fst (by rw [buffer]; exact nbytes.isLt)
  have asked : ((writeDebug start nbytes data : StubM ι Unit) stub).run
      (SimpleBus.handle others) bus =
      (((transacted nbytes
          (bus.writeDbg start (writeBuffer nbytes.toNat data)).1 :
            StubM ι _) >>= fun _ => pure ()) stub).run
          (SimpleBus.handle others)
          (bus.writeDbg start (writeBuffer nbytes.toNat data)).2 := by
    simp only [writeDebug, even, half, decide_true, Machine.assert_true]
    rfl
  rw [asked, replied]
  simp [transacted, buffer]

/-- `write_memory` sets exactly the addressed bytes to what the digits spell,
and `read_memory` then returns the digits in lower case. -/
def RoundTrips (bus : SimpleBus targets) (start : BitVec 64)
    (nbytes : BitVec 32) (port : Fin targets) (data : List Byte)
    (stub : Stub) : Prop :=
  ∃ after,
    ((writeDebug start nbytes data : StubM ι Unit) stub).run
        (SimpleBus.handle others) bus = (.done () stub, after) ∧
      bus.Sets after start port (spelled data) ∧
      ((readDebug start nbytes : StubM ι (List Byte)) stub).run
        (SimpleBus.handle others) after =
          (.done (data.map toLower) stub, after)

theorem roundTrips_iff_writeBuffer {data : List Byte}
    (digits : ∀ digit ∈ data, isHexDigit digit = true)
    (length : data.length = 2 * nbytes.toNat)
    (within : bus.Within start nbytes.toNat port memory) (stub : Stub) :
    RoundTrips others bus start nbytes port data stub ↔
      writeBuffer nbytes.toNat data = spelled data := by
  have buffer := length_writeBuffer nbytes.toNat data
  have sets : bus.Sets (bus.writeDbg start (writeBuffer nbytes.toNat data)).2
      start port (writeBuffer nbytes.toNat data) := by
    have inside : bus.Within start (writeBuffer nbytes.toNat data).length port
        memory := by
      rw [buffer]
      exact within
    apply inside.sets_writeDbg
    rw [buffer]
    exact nbytes.isLt
  unfold RoundTrips
  rw [run_writeDebug others length within stub]
  constructor
  · rintro ⟨_, ⟨⟩, spells, _⟩
    apply sets.eq spells
    rw [buffer, length_spelled length]
  · intro same
    have holds := within.writeDbg nbytes.isLt buffer
    refine ⟨_, rfl, ?_, ?_⟩
    · rw [← same]
      exact sets
    · rw [run_readDebug others holds stub, sets.1,
        SimpleBus.ofFn_memcpy memory _ buffer, same,
        flatMap_hexByte_spelled digits length]

/-- What is written comes back if and only if the second half of the bytes is
zero. -/
theorem roundTrips_iff {data : List Byte}
    (digits : ∀ digit ∈ data, isHexDigit digit = true)
    (length : data.length = 2 * nbytes.toNat)
    (within : bus.Within start nbytes.toNat port memory) (stub : Stub) :
    RoundTrips others bus start nbytes port data stub ↔
      ∀ digit ∈ data.drop (2 * (nbytes.toNat / 2)), digit = ascii '0' :=
  (roundTrips_iff_writeBuffer others digits length within stub).trans
    (writeBuffer_eq_spelled_iff digits length)

end RoundTrip

/-- Replies of surroundings that nothing is asked of. -/
def Request.anything {ι : Type} : ∀ request : Request ι, request.Reply
  | .registers _ => fun _ : Fin 32 => (0 : BitVec 64)
  | .programCounter _ => (0 : BitVec 64)
  | .status _ => CoreExecStatus.runnable
  | .setStatus _ _ => ()
  | .insertBreakpoint _ _ => ()
  | .removeBreakpoint _ _ => ()
  | .v2p _ _ _ => Translation.trap
  | .readDbg _ _ => Transport.assertion
  | .writeDbg _ _ => Transport.assertion
  | .runThreads _ _ => none

/-- A memory of sixteen bytes at `0x80000000`. -/
def smallMemory : SimpleMemory :=
  ⟨16, fun _ => 0⟩

def smallBus : SimpleBus 1 where
  ports _ := ⟨0x80000000, 0x8000000f⟩
  isocks _ := .memory smallMemory

theorem within_smallBus : smallBus.Within 0x80000004 2 0 smallMemory where
  decoded := by decide
  target := rfl
  starts := by decide
  fits := by decide

theorem roundTrips_smallBus :
    RoundTrips (ι := Unit) Request.anything smallBus 0x80000004 2 0
        (text "1A00") .boot ↔
      ∀ digit ∈ (text "1A00").drop (2 * ((2 : BitVec 32).toNat / 2)),
        digit = ascii '0' :=
  roundTrips_iff Request.anything (by decide) rfl within_smallBus .boot

/-- Of two bytes only the first is written. -/
theorem not_roundTrips :
    ¬ ∀ (bus : SimpleBus 1) (start : BitVec 64) (nbytes : BitVec 32)
      (data : List Byte) (memory : SimpleMemory),
      (∀ digit ∈ data, isHexDigit digit = true) →
        data.length = 2 * nbytes.toNat →
          bus.Within start nbytes.toNat 0 memory →
            RoundTrips (ι := Unit) Request.anything bus start nbytes 0 data
              .boot := by
  intro returns
  have digits : ∀ digit ∈ text "1234", isHexDigit digit = true := by decide
  have trips := returns smallBus 0x80000004 2 (text "1234") smallMemory digits
    rfl within_smallBus
  have same := (roundTrips_iff_writeBuffer Request.anything digits rfl
    within_smallBus .boot).mp trips
  exact absurd same (by decide)

end Gdb

end RiscvVp
