import Mathlib
import RiscvVp.Device.Trace
import RiscvVp.Gdb.Readings
import RiscvVp.Gdb.Replies
import RiscvVp.Gdb.Tagging
import RiscvVp.Interaction.Conduct

/-!
# Inspection of the harts

The packets `p`, `g` and `m` are for looking at harts and memory.  The first
two leave all of it as it is.  A read of memory translates as the harts do: it
leaves a page in the buffer, and an accessed bit and a free lock with it, unless
the page is there; and it translates once for the whole range.
-/

namespace RiscvVp

namespace Gdb

open Interaction

/-! ## Reading registers -/

section Registers

variable {ι α : Type}

/-- The registers and the program counter are asked for. -/
def Request.ForRegisters : Request ι → Prop
  | .registers _ | .programCounter _ => True
  | _ => False

variable {permitted : Request ι → Prop}

instance asking_onEach (fn : ι → StubM ι α)
    [each : ∀ hart, Machine.Asking permitted (fn hart)] (harts : List ι) :
    Machine.Asking permitted (onEach fn harts) := by
  induction harts with
  | nil => exact inferInstanceAs (Machine.Asking permitted (pure []))
  | cons hart rest inductionHypothesis =>
      rw [onEach_cons]
      infer_instance

instance asking_execThread [DecidableEq ι] (targets : Targets ι)
    (fn : ι → StubM ι α) [∀ hart, Machine.Asking permitted (fn hart)] :
    Machine.Asking permitted (execThread targets fn) := by
  unfold execThread
  refine @Machine.Asking.bind _ _ _ _ _ _ _ _ _ _ _ fun known => ?_
  cases known <;> infer_instance

instance asking_caught (cause : Thrown) (machine : StubM ι α)
    [Machine.Asking permitted machine] :
    Machine.Asking permitted (caught cause machine) := by
  unfold caught
  infer_instance

instance asking_sendPacket (data : List Byte) :
    Machine.Asking permitted (sendPacket data : StubM ι Unit) := by
  unfold sendPacket
  split <;> infer_instance

variable [DecidableEq ι] (targets : Targets ι)

instance asking_getRegisters :
    Machine.Asking Request.ForRegisters (getRegisters targets) := by
  have each (hart : ι) : Machine.Asking Request.ForRegisters (do
      let values : Fin 32 → BitVec 64 ← Machine.request (.registers hart)
      return (List.ofFn values).flatMap (formatRegister targets.architecture) :
        StubM ι (List Byte)) := by
    have asked : Machine.Asking Request.ForRegisters
        (Machine.request (.registers hart) : StubM ι (Fin 32 → BitVec 64)) :=
      .request trivial _
    infer_instance
  unfold getRegisters
  infer_instance

instance asking_readTargetRegister (hart : ι) (index : BitVec 32) :
    Machine.Asking Request.ForRegisters (readTargetRegister hart index) := by
  have asked : Machine.Asking Request.ForRegisters
      (Machine.request (.registers hart) : StubM ι (Fin 32 → BitVec 64)) :=
    .request trivial _
  unfold readTargetRegister
  refine @Machine.Asking.bind _ _ _ _ _ _ _ _ _ _ asked fun values => ?_
  split <;> infer_instance

instance asking_readRegister (reg : ℤ) :
    Machine.Asking Request.ForRegisters (readRegister targets reg) := by
  have each (hart : ι) : Machine.Asking Request.ForRegisters (do
      let regval ←
        if reg = pcReg then Machine.request (.programCounter hart)
        else readTargetRegister hart (BitVec.ofInt 32 reg)
      return formatRegister targets.architecture regval :
        StubM ι (List Byte)) := by
    have asked : Machine.Asking Request.ForRegisters
        (Machine.request (.programCounter hart) : StubM ι (BitVec 64)) :=
      .request trivial _
    infer_instance
  unfold readRegister
  refine @Machine.Asking.bind _ _ _ _ _ _ _ _ _ _ _ fun formatted => ?_
  cases formatted <;> infer_instance

end Registers

/-! ## Packets that look -/

/-- The command of a packet that is no acknowledgement. -/
def commanded (packet : Packet) : Option Command :=
  match packet.kind with
  | .nack | .ack => none
  | .packet | .notify => (gdbParseCmd packet).toOption

section Packets

variable {ι : Type} [DecidableEq ι] {targets : Targets ι} {packet : Packet}
  {command : Command}

theorem run_of_commanded (asked : commanded packet = some command) :
    run targets packet = (do
      send .ack
      match handlers.lookup command.name with
      | none => sendPacket []
      | some handler => handle targets handler command.v) := by
  have parsed (named : commanded packet = (gdbParseCmd packet).toOption) :
      gdbParseCmd packet = .ok command := by
    rw [named] at asked
    cases result : gdbParseCmd packet with
    | error fault => rw [result] at asked; cases asked
    | ok command => rw [result] at asked; cases asked; rfl
  unfold run
  cases kind : packet.kind with
  | nack | ack =>
      rw [commanded, kind] at asked
      cases asked
  | packet | notify =>
      have read := parsed (by rw [commanded, kind])
      change Gdb.command targets packet = _
      unfold Gdb.command
      generalize gdbParseCmd packet = result at read
      subst read
      rfl

/-- `p` and `g` ask for nothing else, with or without their argument. -/
theorem asking_run (asked : commanded packet = some command)
    (named : command.name = text "p" ∨ command.name = text "g") :
    Machine.Asking Request.ForRegisters (run targets packet) := by
  have sends : Machine.Asking Request.ForRegisters
      (send .ack : StubM ι Unit) := by
    unfold send
    infer_instance
  have handled : Machine.Asking Request.ForRegisters
      (match handlers.lookup command.name with
        | none => sendPacket []
        | some handler => handle targets handler command.v :
          StubM ι Unit) := by
    obtain named | named := named
    · have found : handlers.lookup command.name = some .readRegister := by
        rw [named]
        decide
      rw [found]
      cases command.v <;>
        first
        | exact asking_readRegister targets _
        | exact inferInstanceAs (Machine.Asking _ (Machine.abort _))
    · have found : handlers.lookup command.name = some .getRegisters := by
        rw [named]
        decide
      rw [found]
      cases command.v <;> exact asking_getRegisters targets
  rw [run_of_commanded asked]
  infer_instance

end Packets

/-! ## Reading memory -/

section Memory

variable {ι : Type} [DecidableEq ι] {ports : ℕ} (targets : Targets ι)
  (configs : Board.Configs ι) (resume : Board.Resumption ι ports)

variable {targets configs resume} {stub : Stub} {board : Board ι ports}
  {mem : Gdb.Memory} {harts : List ι} {bytes : ι → ℕ → Byte}

/-- The reply to a `retval`. -/
def replyTo (retval : Option (List (List Byte))) : List Byte :=
  (retval.map List.flatten).getD e01

theorem run_readMemory {last : Stub} {later : Board ι ports} :
    (readMemory targets mem stub).run (Board.handle configs resume) board =
        (.done () last, later) ↔
      mem.length.toNat ≤ uintMax ∧ ∃ retval middle serialized,
        (caught .runtimeError (execThread targets (readRange targets mem.addr
          (mem.length.setWidth 32))) stub).run (Board.handle configs resume)
            board = (.done retval middle, later) ∧
          gdbSerialize .packet (some (replyTo retval)) = some serialized ∧
            last = middle.post serialized := by
  by_cases small : mem.length.toNat ≤ uintMax
  · unfold readMemory
    simp only [small, decide_true, Machine.assert_true, true_and]
    change (((caught .runtimeError (execThread targets (readRange targets
      mem.addr (mem.length.setWidth 32))) : StubM ι _) >>= _) stub).run _ _ =
        _ ↔ _
    rw [Machine.run_bind_eq_done]
    constructor
    · rintro ⟨retval, middle, between, read, sent⟩
      have sends : (sendPacket (replyTo retval) middle).run
          (Board.handle configs resume) between = (.done () last, later) := by
        cases retval <;> exact sent
      obtain ⟨serialized, written, rfl, rfl⟩ := run_sendPacket.mp sends
      exact ⟨retval, middle, serialized, read, written, rfl⟩
    · rintro ⟨retval, middle, serialized, read, written, rfl⟩
      refine ⟨retval, middle, later, read, ?_⟩
      have sends : (sendPacket (replyTo retval) middle).run
          (Board.handle configs resume) later =
            (.done () (middle.post serialized), later) :=
        run_sendPacket.mpr ⟨serialized, written, rfl, rfl⟩
      cases retval <;> exact sends
  · unfold readMemory
    simp [small]

theorem run_readMemory_iff (known : selected targets stub = some harts) :
    (∃ last, (readMemory targets mem stub).run (Board.handle configs resume)
        board = (.done () last, board) ∧
      stub.HasSent last (digits harts mem.length.toNat bytes)) ↔
    mem.length.toNat ≤ uintMax ∧
      Serializes (digits harts mem.length.toNat bytes) ∧
      ∃ parts, Readings (Board.handle configs resume)
        (readRange targets mem.addr (mem.length.setWidth 32)) stub board
        harts parts ∧
      parts.flatten = digits harts mem.length.toNat bytes := by
  have marks := @marks_readRange _ _ _ targets configs resume mem.addr stub
    (mem.length.setWidth 32)
  have each : execThread targets
      (readRange targets mem.addr (mem.length.setWidth 32)) stub =
        onEach (readRange targets mem.addr (mem.length.setWidth 32)) harts
          stub := by
    simp [execThread, known]
  simp only [run_readMemory, run_caught_eq_done, each]
  constructor
  · rintro ⟨_, ⟨small, retval, middle, serialized, read, written, rfl⟩,
      packet, rewritten, sent⟩
    obtain rfl := Sent.packet.inj (List.cons.inj sent).1
    have same := gdbSerialize_injective written rewritten
    obtain ⟨parts, rfl, read⟩ | ⟨rfl, _⟩ := read
    · obtain ⟨rfl, readings⟩ := marks.run_onEach_iff.mp read
      exact ⟨small, ⟨_, rewritten⟩, parts, readings, same⟩
    · -- the reply to an error has an odd length
      have even := length_digits harts mem.length.toNat bytes
      rw [← same] at even
      cases even
  · rintro ⟨small, ⟨serialized, written⟩, parts, readings, same⟩
    refine ⟨_, ⟨small, some parts, stub, serialized,
      .inl ⟨parts, rfl, run_onEach_of_readings readings⟩, ?_, rfl⟩,
      serialized, written, rfl⟩
    rw [← same] at written
    exact written

theorem plain_digits {ι : Type} (harts : List ι) (len : ℕ)
    (bytes : ι → ℕ → Byte) : Plain (digits harts len bytes) :=
  plain_flatMap fun _ => plain_flatMap plain_hexByte

theorem readings_flatten_iff {addr : BitVec 64} {nbytes : BitVec 32} :
    (∃ parts, Readings (Board.handle configs resume)
        (readRange targets addr nbytes) stub board harts parts ∧
      parts.flatten = digits harts nbytes.toNat bytes) ↔
    ∀ hart ∈ harts, ∃ start,
      board.immediate targets configs hart addr = some start ∧
        board.bus.Holds start nbytes (bytes hart) := by
  constructor
  · rintro ⟨parts, readings, same⟩
    have alike : List.Forall₂ (fun _ part => part.length = 2 * nbytes.toNat)
        harts parts := by
      refine readings.imp fun hart part read => ?_
      obtain ⟨_, _, buffer, _, rfl⟩ := run_readRange_iff.mp read
      rw [length_flatMap_hexByte, List.length_ofFn]
    have parted := eq_map_of_flatten_eq (fun hart => by
      rw [length_flatMap_hexByte, List.length_ofFn]) alike same
    rw [parted, readings_map_iff] at readings
    intro hart member
    obtain ⟨start, found, buffer, read, written⟩ :=
      run_readRange_iff.mp (readings hart member)
    have bytesRead := congrArg spelled written
    rw [spelled_flatMap_hexByte, spelled_flatMap_hexByte] at bytesRead
    rw [← List.ofFn_injective bytesRead] at read
    exact ⟨start, found, SimpleBus.holds_iff.mpr read⟩
  · intro direct
    refine ⟨harts.map fun hart =>
      (List.ofFn fun i : Fin nbytes.toNat => bytes hart i).flatMap hexByte,
      readings_map_iff.mpr fun hart member => ?_, List.flatMap_def.symm⟩
    obtain ⟨start, found, holds⟩ := direct hart member
    exact run_readRange_iff.mpr
      ⟨start, found, _, SimpleBus.holds_iff.mp holds, rfl⟩

end Memory

/-! ## Reads without effect -/

section ReadsOnly

variable {ι : Type} [DecidableEq ι] {ports : ℕ} (targets : Targets ι)
  (configs : Board.Configs ι) (resume : Board.Resumption ι ports)

/-- The packet asks for a range of the selected harts at which, as at its start,
they would load the bytes. -/
structure Looks (state : Stub × Board ι ports) (packet : Packet)
    (mem : Gdb.Memory) (harts : List ι) (bytes : ι → ℕ → Byte) : Prop where
  asked : ∃ type, commanded packet = some ⟨text "m", type, .mem mem⟩
  known : selected targets state.1 = some harts
  mapped : ∀ hart ∈ harts,
    (state.2.loadByte configs hart mem.addr).isSome = true ∧
      ∀ i < mem.length.toNat,
        state.2.loadByte configs hart (mem.addr + BitVec.ofNat 64 i) =
          some (bytes hart i)

/-- Registers are read without effect, and a mapped range is, and its bytes are
what is sent. -/
structure ReadsOnly (state : Stub × Board ι ports) (packet : Packet) :
    Prop where
  registers : ∀ command, commanded packet = some command →
    command.name = text "p" ∨ command.name = text "g" →
      ((run targets packet state.1).run (Board.handle configs resume)
        state.2).2 = state.2
  memory : ∀ mem harts bytes,
    Looks targets configs state packet mem harts bytes →
      ∃ later, (run targets packet state.1).run
          (Board.handle configs resume) state.2 = (.done () later, state.2) ∧
        { state.1 with sent := .ack :: state.1.sent }.HasSent later
          (digits harts mem.length.toNat bytes)

/-- Each hart that looks at a mapped range has its translation at once, and all
of the range is in one memory behind it; the sum of the digits is an `int`. -/
def Direct (state : Stub × Board ι ports) (packet : Packet) : Prop :=
  ∀ mem harts bytes, Looks targets configs state packet mem harts bytes →
    mem.length.toNat ≤ uintMax ∧
    charSum (digits harts mem.length.toNat bytes) < 2 ^ 31 ∧
    ∀ hart ∈ harts, ∃ start,
      state.2.immediate targets configs hart mem.addr = some start ∧
        state.2.bus.Holds start (mem.length.setWidth 32) (bytes hart)

variable {targets configs resume}

theorem run_of_looks {state : Stub × Board ι ports} {packet : Packet}
    {mem : Gdb.Memory} {harts : List ι} {bytes : ι → ℕ → Byte}
    (looks : Looks targets configs state packet mem harts bytes) :
    run targets packet state.1 =
      readMemory targets mem { state.1 with sent := .ack :: state.1.sent } := by
  obtain ⟨type, asked⟩ := looks.asked
  have found : handlers.lookup (text "m") = some .readMemory := by decide
  rw [run_of_commanded asked]
  simp only [found]
  rfl

theorem readsOnly_iff_direct (state : Stub × Board ι ports)
    (packet : Packet) :
    ReadsOnly targets configs resume state packet ↔
      Direct targets configs state packet := by
  have each (mem : Gdb.Memory) (harts : List ι) (bytes : ι → ℕ → Byte)
      (looks : Looks targets configs state packet mem harts bytes) :
      (∃ later, (run targets packet state.1).run
          (Board.handle configs resume) state.2 = (.done () later, state.2) ∧
        { state.1 with sent := .ack :: state.1.sent }.HasSent later
          (digits harts mem.length.toNat bytes)) ↔
      mem.length.toNat ≤ uintMax ∧
      charSum (digits harts mem.length.toNat bytes) < 2 ^ 31 ∧
      ∀ hart ∈ harts, ∃ start,
        state.2.immediate targets configs hart mem.addr = some start ∧
          state.2.bus.Holds start (mem.length.setWidth 32) (bytes hart) := by
    have known : selected targets { state.1 with
        sent := .ack :: state.1.sent } = some harts := looks.known
    rw [run_of_looks looks, run_readMemory_iff known,
      (plain_digits harts mem.length.toNat bytes).serializes_iff]
    apply and_congr_right
    intro small
    apply and_congr_right
    intro _
    have kept : (mem.length.setWidth 32).toNat = mem.length.toNat := by
      rw [BitVec.toNat_setWidth]
      apply Nat.mod_eq_of_lt
      unfold uintMax at small
      omega
    rw [← kept, readings_flatten_iff]
  constructor
  · intro reads mem harts bytes looks
    exact (each mem harts bytes looks).mp (reads.memory mem harts bytes looks)
  · intro direct
    refine ⟨fun command asked named => ?_, fun mem harts bytes looks =>
      (each mem harts bytes looks).mpr (direct mem harts bytes looks)⟩
    refine ((asking_run asked named).asking state.1).run_snd ?_
    intro request permitted
    cases request with
    | registers | programCounter => rfl
    | _ => cases permitted

variable (targets configs resume)

/-- A packet is handled; the harts run within `vCont` only. -/
def Handled (state : Stub × Board ι ports) (packet : Packet)
    (later : Stub × Board ι ports) : Prop :=
  (run targets packet state.1).run (Board.handle configs resume) state.2 =
    (.done () later.1, later.2)

/-- In a session reads have no effect exactly where the packets that look at
memory find their translations. -/
theorem inspections_iff (packets : List Packet)
    (state : Stub × Board ι ports) :
    Trace.EveryEvent (Handled targets configs resume)
        (ReadsOnly targets configs resume) packets state ↔
      Trace.EveryEvent (Handled targets configs resume)
        (Direct targets configs) packets state :=
  Trace.everyEvent_congr (fun _ _ _ _ _ => trivial)
    (fun state packet _ => readsOnly_iff_direct state packet) trivial

end ReadsOnly

/-! ## A page that is not in the buffer -/

/-- The hart has entered supervisor mode and reserved an address.  The one entry
of its page table has `A` clear. -/
def paged : Board Unit 1 where
  harts := fun _ =>
    { csrs := (Rv32.CsrTable.reset 0 false).set .satp 0x80000000
      prv := supervisorMode }
  busLock := ⟨true, 0⟩
  bus :=
    { ports := fun _ => ⟨0, 0xfff⟩
      isocks := fun _ => .memory
        ⟨0x1000, fun place => if place = 0 then 0x0f else 0⟩ }
  peripherals := fun _ _ _ => .fatal

def withMmu : Board.Configs Unit := fun _ =>
  { pipelineTiming := false
    softfloat := default
    sys := false
    mmu := true
    dmiRanges := []
    instrMemoryProxy := none }

def lone : Targets Unit where
  harts := [()]
  nonempty := nofun
  hartId _ := 0
  architecture := .rv32
  translates := true

/-- They do not stop. -/
def unstopped : Board.Resumption Unit 1 :=
  fun _ _ board => (none, board)

/-- The packet `$m8,1#02`. -/
def lookAtEight : Packet :=
  ⟨.packet, some (text "m8,1"), text "02"⟩

/-- The read sets the bit and frees the lock. -/
example :
    let later := ((run lone lookAtEight Stub.boot).run
      (Board.handle withMmu unstopped) paged).2
    later.busLock.locked = false ∧ later.bus.byte 0 0 = some 0x4f := by
  decide +kernel

theorem looks_lookAtEight :
    Looks lone withMmu (Stub.boot, paged) lookAtEight ⟨8, 1⟩ [()]
      fun _ _ => 0 where
  asked := ⟨.memory, by decide⟩
  known := rfl
  mapped := by
    have loaded : paged.loadByte withMmu () 8 = some 0 := by decide
    intro hart _
    refine ⟨by rw [loaded]; rfl, fun i inside => ?_⟩
    obtain rfl : i = 0 := Nat.lt_one_iff.mp inside
    exact loaded

theorem not_inspections :
    ¬ ∀ packets, Trace.EveryEvent
      (Handled lone withMmu unstopped) (ReadsOnly lone withMmu unstopped)
      packets (Stub.boot, paged) := by
  intro every
  have reads := (every [lookAtEight]).1
  obtain ⟨_, _, direct⟩ := (readsOnly_iff_direct _ _).mp reads _ _ _
    looks_lookAtEight
  obtain ⟨start, found, _⟩ := direct () (List.mem_singleton_self _)
  have missed : paged.immediate lone withMmu () 8 = none := by decide +kernel
  cases missed.symm.trans found

end Gdb

end RiscvVp
