import RiscvVp.Gdb.DebugMemory
import RiscvVp.Rv32.BusLock
import RiscvVp.Rv32.Translations
import RiscvVp.Interaction.Attempt

/-!
# Harts behind the debugger

The surroundings of the packet handlers with the harts in them.  The server
calls `v2p` of a hart's own memory interface, which makes its transactions on
the bus of the harts and waits for their lock.
-/

namespace RiscvVp

namespace Gdb

open Interaction

/-! ## Accesses of the harts -/

/-- Memory is little-endian. -/
def littleEndian (bytes : List Byte) : ℕ :=
  bytes.foldr (fun byte rest => byte.toNat + 2 ^ 8 * rest) 0

def bytesOf (count : ℕ) (data : BitVec (8 * count)) : List Byte :=
  (List.range count).map fun i => data.extractLsb' (8 * i) 8

namespace SimpleBus

variable {ports : ℕ}

/-- `MemoryDMI` points into the memory that has the address. -/
def dmiLoad (bus : SimpleBus ports) (bytes : ℕ) (addr : BitVec 64) :
    BitVec (8 * bytes) :=
  match bus.decode addr with
  | none => 0
  | some port =>
      match bus.isocks port with
      | .memory memory =>
          let first := (bus.offset port addr).toNat
          BitVec.ofNat _ (littleEndian
            ((List.range bytes).map fun i => memory.data (first + i)))
      | .peripheral => 0

def dmiStore (bus : SimpleBus ports) (bytes : ℕ) (addr : BitVec 64)
    (data : BitVec (8 * bytes)) : SimpleBus ports :=
  match bus.decode addr with
  | none => bus
  | some port =>
      match bus.isocks port with
      | .memory memory =>
          let first := (bus.offset port addr).toNat
          { bus with
            isocks := Function.update bus.isocks port
              (.memory (memory.memcpy first (bytesOf bytes data))) }
      | .peripheral => bus

end SimpleBus

/-- Of a peripheral it is left open what a read yields. -/
structure Board (ι : Type) (ports : ℕ) where
  harts : ι → Rv32.Hart
  busLock : Rv32.BusLock
  bus : SimpleBus ports
  peripherals : Fin ports → (bytes : ℕ) → BitVec 64 →
    Rv32.BusReply (BitVec (8 * bytes))

namespace Board

variable {ι : Type} {ports : ℕ}

/-- `b_transport` with a read; that of a memory is its `transport_dbg`. -/
def read (board : Board ι ports) (bytes : ℕ) (addr : BitVec 64) :
    Rv32.BusReply (BitVec (8 * bytes)) :=
  match board.bus.decode addr with
  | none => .error []
  | some port =>
      match board.bus.isocks port with
      | .memory memory =>
          match memory.readDbg (board.bus.offset port addr)
              (BitVec.ofNat 32 bytes) with
          | .returned _ _ buffer =>
              .ok (BitVec.ofNat _ (littleEndian (List.ofFn buffer))) []
          | .assertion => .fatal
      | .peripheral =>
          board.peripherals port bytes
            ((board.bus.ports port).globalToLocal addr)

/-- `b_transport` with a write -/
def write (board : Board ι ports) (bytes : ℕ) (addr : BitVec 64)
    (data : BitVec (8 * bytes)) : Rv32.BusReply Unit × Board ι ports :=
  let written := board.bus.writeDbg addr (bytesOf bytes data)
  let reply : Rv32.BusReply Unit := match written.1 with
    | .returned isResponseError _ _ =>
        if isResponseError then .error [] else .ok () []
    | .assertion => .fatal
  (reply, { board with bus := written.2 })

/-- What the bus, its memories and the lock answer to a hart.  It is refused
what does not return while the other harts stand still, and what has nothing
to do with memory. -/
def serve : (call : Rv32.Call) → Board ι ports →
    Except Unit (Rv32.Reply call × Board ι ports)
  | .read bytes addr, board => .ok (board.read bytes addr, board)
  | .write _ bytes addr data, board => .ok (board.write bytes addr data)
  | .dmiLoad _ bytes addr, board => .ok (board.bus.dmiLoad bytes addr, board)
  | .dmiStore _ _ bytes addr data, board =>
      .ok ((), { board with bus := board.bus.dmiStore bytes addr data })
  | .lock hartId, board =>
      match board.busLock.lock hartId with
      | none => .error ()
      | some busLock => .ok ([], { board with busLock := busLock })
  | .unlock hartId, board =>
      .ok ((), { board with busLock := board.busLock.unlock hartId })
  | .isLocked hartId, board => .ok (board.busLock.isLocked hartId, board)
  | .waitForAccessRights hartId, board =>
      if board.busLock.locked && board.busLock.owner != hartId then .error ()
      else .ok ([], board)
  | .observe _, board => .ok ((), board)
  | .updateAndGetMtime, _ | .executeSyscall _ _ _ _ _, _ | .waitWfi, _
  | .needSync _, _ | .sync, _ => .error ()

variable [DecidableEq ι]

/-- Run a statement of a hart, unless it is refused something. -/
def runs {α : Type} (machine : Rv32.HartM α) (hart : ι)
    (board : Board ι ports) :
    Option (Outcome Rv32.Hart SimulationTrap Fatal α) × Board ι ports :=
  Program.attempt (fun _ => none) serve
    (machine (board.harts hart) >>= fun outcome => .ret (some outcome)) board

def setHart (board : Board ι ports) (hart : ι) (state : Rv32.Hart) :
    Board ι ports :=
  { board with harts := Function.update board.harts hart state }

/-- How the memory interfaces of the harts are built. -/
abbrev Configs (ι : Type) : Type :=
  ι → Rv32.Config

variable (configs : Configs ι)

/-- `v2p` of the hart's memory interface -/
def v2p (hart : ι) (vaddr : BitVec 64) (type : MemoryAccessType)
    (board : Board ι ports) : Translation × Board ι ports :=
  match board.runs (Rv32.Memory.v2p (configs hart) vaddr type) hart with
  | (some (.done paddr state), later) =>
      (.address paddr, later.setHart hart state)
  | (some (.trap _ state), later) => (.trap, later.setHart hart state)
  | (some (.abort _), later) => (.assertion, later)
  | (none, later) => (.blocked, later)

/-- The byte that the hart would load, once it has got the bus. -/
def loadByte (hart : ι) (vaddr : BitVec 64) (board : Board ι ports) :
    Option Byte :=
  let granted : Board ι ports := { board with busLock := {} }
  match (granted.runs (Rv32.Memory.loadData (configs hart) 1 vaddr) hart).1 with
  | some (.done value _) => some value
  | _ => none

/-- What the harts do from `run_threads` until one of them has stopped. -/
abbrev Resumption (ι : Type) (ports : ℕ) : Type :=
  (hartsrun : List ι) → Bool → Board ι ports →
    Option (Stopped hartsrun) × Board ι ports

/-- `debug_target_if`, `mmu_memory_if` and the debug port of the bus. -/
def handle (resume : Resumption ι ports) :
    (request : Request ι) → Board ι ports → request.Reply × Board ι ports
  | .registers hart, board =>
      (fun index =>
        ((board.harts hart).regs (BitVec.ofFin index)).setWidth 64, board)
  | .programCounter hart, board => ((board.harts hart).pc.setWidth 64, board)
  | .status hart, board => ((board.harts hart).status, board)
  | .setStatus hart status, board =>
      ((), board.setHart hart { board.harts hart with status := status })
  | .insertBreakpoint hart address, board =>
      ((), board.setHart hart { board.harts hart with
        breakpoints := fun pc =>
          pc.setWidth 64 = address || (board.harts hart).breakpoints pc })
  | .removeBreakpoint hart address, board =>
      ((), board.setHart hart { board.harts hart with
        breakpoints := fun pc =>
          pc.setWidth 64 != address && (board.harts hart).breakpoints pc })
  | .v2p hart vaddr type, board => board.v2p configs hart vaddr type
  | .readDbg address nbytes, board => (board.bus.readDbg address nbytes, board)
  | .writeDbg address data, board =>
      let written := board.bus.writeDbg address data
      (written.1, { board with bus := written.2 })
  | .runThreads hartsrun single, board => resume hartsrun single board

/-! ## Translations -/

variable {configs} {hart : ι} {vaddr : BitVec 64} {type : MemoryAccessType}
  {board later : Board ι ports}

omit [DecidableEq ι] in
theorem serve_harts {call : Rv32.Call}
    {answered : Rv32.Reply call × Board ι ports}
    (served : serve call board = .ok answered) :
    answered.2.harts = board.harts := by
  cases call with
  | lock hartId =>
      rw [serve] at served
      split at served
      · cases served
      · cases served
        rfl
  | waitForAccessRights hartId =>
      rw [serve] at served
      split at served
      · cases served
      · cases served
        rfl
  | read | write | dmiLoad | dmiStore | unlock | isLocked | observe =>
      cases served
      rfl
  | updateAndGetMtime | executeSyscall | waitWfi | needSync | sync =>
      cases served

omit [DecidableEq ι] in
/-- What is served keeps the harts. -/
theorem runs_harts {α : Type} (machine : Rv32.HartM α) (hart : ι)
    (board : Board ι ports) :
    (board.runs machine hart).2.harts = board.harts := by
  have kept (call : Rv32.Call) (world : Board ι ports)
      (answered : Rv32.Reply call × Board ι ports)
      (served : serve call world = .ok answered)
      (same : world.harts = board.harts) : answered.2.harts = board.harts :=
    (serve_harts served).trans same
  exact Program.attempt_keeps (fun _ => none) kept _ rfl

omit [DecidableEq ι] in
theorem runs_all {α : Type} {machine : Rv32.HartM α}
    {property : Outcome Rv32.Hart SimulationTrap Fatal α → Prop}
    (holds : (machine (board.harts hart)).All property)
    {outcome : Outcome Rv32.Hart SimulationTrap Fatal α}
    (ran : board.runs machine hart = (some outcome, later)) :
    property outcome := by
  have every : (machine (board.harts hart) >>= fun outcome =>
      .ret (some outcome)).All fun result =>
        ∀ outcome, result = some outcome → property outcome := by
    rw [Program.all_bind]
    refine holds.mono fun outcome within => ?_
    rintro _ ⟨⟩
    exact within
  have reached := every.attempt (fun _ => none) serve
    (fun _ outcome same => nomatch same) board
  have first : (board.runs machine hart).1 = some outcome := by rw [ran]
  exact reached outcome first

/-- An immediate translation leaves everything as it is. -/
theorem v2p_immediate {paddr : BitVec 64}
    (found : Rv32.Memory.immediate (configs hart) (board.harts hart) vaddr type =
      some paddr) :
    board.v2p configs hart vaddr type = (.address paddr, board) := by
  have ran : board.runs (Rv32.Memory.v2p (configs hart) vaddr type) hart =
      (some (.done paddr (board.harts hart)), board) := by
    rw [runs, Rv32.Memory.v2p_immediate found]
    rfl
  rw [v2p, ran]
  simp only [setHart, Function.update_eq_self]

/-- The page of the address is in the buffer of the hart. -/
def Cached (board : Board ι ports) (hart : ι) (supervisor : Bool)
    (type : MemoryAccessType) (vaddr : BitVec 64) : Prop :=
  Mmu.Cached (board.harts hart).tlb supervisor type vaddr

/-- A translation touches the buffer of its hart only, and fills it if it is not
immediate. -/
theorem v2p_address {paddr : BitVec 64}
    (translated : board.v2p configs hart vaddr type = (.address paddr, later)) :
    ∃ state, later.harts = Function.update board.harts hart state ∧
      ((Rv32.Memory.immediate (configs hart) (board.harts hart) vaddr type =
          some paddr ∧ state.tlb = (board.harts hart).tlb) ∨
        (¬ Mmu.Cached (board.harts hart).tlb
            (Rv32.Memory.bySupervisor (board.harts hart) type) type vaddr ∧
          ∃ ppn, state.tlb = (board.harts hart).tlb.update
            (Rv32.Memory.bySupervisor (board.harts hart) type) type
            (Mmu.tlbIndex vaddr) ⟨ppn, vaddr >>> Mmu.pgShift⟩)) := by
  unfold v2p at translated
  have kept := board.runs_harts (Rv32.Memory.v2p (configs hart) vaddr type) hart
  split at translated
  next address state between ran =>
    cases translated
    rw [ran] at kept
    have same : between.harts = board.harts := kept
    refine ⟨state, by rw [setHart, same], ?_⟩
    exact runs_all (Rv32.Memory.v2p_leaves (configs hart) (board.harts hart)
      vaddr type) ran paddr state rfl
  all_goals cases translated

/-- A translation of the same address keeps the page in every buffer. -/
theorem Cached.v2p {paddr : BitVec 64} {other : ι} {supervisor : Bool}
    (cached : board.Cached other supervisor type vaddr)
    (translated : board.v2p configs hart vaddr type = (.address paddr, later)) :
    later.Cached other supervisor type vaddr := by
  obtain ⟨state, same, leaves⟩ := v2p_address translated
  unfold Cached at cached ⊢
  rw [same]
  by_cases here : other = hart
  · subst here
    rw [Function.update_self]
    obtain ⟨_, kept⟩ | ⟨_, ppn, filled⟩ := leaves
    · rw [kept]
      exact cached
    · rw [filled]
      exact cached.update _ ppn
  · rw [Function.update_of_ne here]
    exact cached

/-- A translation that is not immediate leaves a page that was not there. -/
theorem cached_of_v2p {paddr : BitVec 64}
    (translated : board.v2p configs hart vaddr type = (.address paddr, later))
    (walked : Rv32.Memory.immediate (configs hart) (board.harts hart) vaddr type ≠
      some paddr) :
    ∃ supervisor, ¬ board.Cached hart supervisor type vaddr ∧
      later.Cached hart supervisor type vaddr := by
  obtain ⟨state, same, leaves⟩ := v2p_address translated
  obtain ⟨missed, ppn, filled⟩ := leaves.resolve_left fun both => walked both.1
  refine ⟨_, missed, ?_⟩
  rw [Cached, same, Function.update_self, filled]
  exact Mmu.cached_update _ _ _ _ _

end Board

end Gdb

end RiscvVp
