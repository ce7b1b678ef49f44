import Mathlib
import RiscvVp.Sm3.Rounds

/-!
# The driver

`sw/sm3_hw/sm3.h` on a little-endian core.  The driver resets the accelerator
and then, for one block after the other, writes the sixteen words, starts the
core and waits until the completion count tells that the block is done.  How
many clock edges pass between its accesses is left open; the wait inside a
write takes one at least.
-/

namespace RiscvVp

namespace Sm3

open Bits

/-- How many clock edges pass while the driver runs. -/
structure Schedule : Type where
  before : ℕ → ℕ
  /-- The edges in the `wait` of a write. -/
  during : ℕ → ℕ
  /-- The edges before each read of the completion count, after the reset. -/
  resetPolls : List ℕ
  /-- The same, after a block. -/
  polls : ℕ → List ℕ
  waits : ∀ write, 0 < during write

def elapse : ℕ → Accelerator → Accelerator
  | 0, accelerator => accelerator
  | edges + 1, accelerator => elapse edges (step accelerator .edge)

section Driver

variable (schedule : Schedule)

/-- `writeReg32`, the driver's `write`-th one. -/
def writeReg (write addr : ℕ) (data : Word) (accelerator : Accelerator) :
    Accelerator :=
  let accelerator := elapse (schedule.before write) accelerator
  let accelerator := step accelerator (.begin addr data)
  let accelerator := elapse (schedule.during write) accelerator
  step accelerator .finish

/-- The loop over the words of `message_in`. -/
def writeWords (write : ℕ) (block : MessageBlock) (accelerator : Accelerator) :
    Accelerator :=
  (List.range 16).foldl
    (fun accelerator i =>
      writeReg schedule (write + i) (i * 4) (block.word i) accelerator)
    accelerator

/-- The loops on `addr_V_ready`, from what `rdata` holds; there is no result
when the reads run out. -/
def poll (count : Word) : Word → List ℕ → Accelerator →
    Option (Word × Accelerator)
  | rdata, [], accelerator =>
      if rdata = count then some (rdata, accelerator) else none
  | rdata, edges :: pauses, accelerator =>
      if rdata = count then some (rdata, accelerator)
      else do
        let accelerator := elapse edges accelerator
        poll count (← accelerator.read 0x68) pauses accelerator

/-- One block, `index` blocks after the reset. -/
def hashBlock (index : ℕ) (block : MessageBlock) (rdata : Word)
    (accelerator : Accelerator) : Option (Word × Accelerator) :=
  let write := 2 + 18 * index
  let accelerator := writeWords schedule write block accelerator
  let accelerator := writeReg schedule (write + 16) 0x64 1 accelerator
  let accelerator := writeReg schedule (write + 17) 0x64 0 accelerator
  poll (BitVec.ofNat 32 (index + 1)) rdata (schedule.polls index) accelerator

/-- The blocks in order, with what the output registers show after each. -/
def hashBlocks : ℕ → List MessageBlock → Word → Accelerator →
    Option (List Chain × Accelerator)
  | _, [], _, accelerator => some ([], accelerator)
  | index, block :: blocks, rdata, accelerator => do
      let (rdata, accelerator) ← hashBlock schedule index block rdata accelerator
      let (shown, later) ← hashBlocks (index + 1) blocks rdata accelerator
      return (accelerator.outputs :: shown, later)

/-- `sm3_test` for any list of blocks; `rdata` is not initialized. -/
def sm3Test (blocks : List MessageBlock) (rdata : Word)
    (accelerator : Accelerator) : Option (List Chain × Accelerator) := do
  let accelerator := writeReg schedule 0 0x60 1 accelerator
  let (rdata, accelerator) ← poll 0 rdata schedule.resetPolls accelerator
  let accelerator := writeReg schedule 1 0x60 0 accelerator
  hashBlocks schedule 0 blocks rdata accelerator

end Driver

/-! ## Edges -/

theorem sm3Hash_keeps (accelerator : Accelerator) :
    (sm3Hash accelerator).socket = accelerator.socket ∧
      (sm3Hash accelerator).rst = accelerator.rst := by
  simp only [sm3Hash]
  split_ifs <;> exact ⟨rfl, rfl⟩

theorem elapse_keeps (edges : ℕ) (accelerator : Accelerator) :
    (elapse edges accelerator).socket = accelerator.socket ∧
      (elapse edges accelerator).rst = accelerator.rst := by
  induction edges generalizing accelerator with
  | zero => exact ⟨rfl, rfl⟩
  | succ edges inductionHypothesis =>
      obtain ⟨socket, rst⟩ := inductionHypothesis (sm3Hash accelerator)
      obtain ⟨socketFirst, rstFirst⟩ := sm3Hash_keeps accelerator
      exact ⟨socket.trans socketFirst, rst.trans rstFirst⟩

/-- The core waits for a block and nothing makes it start one. -/
structure Rests (chain : Chain) (count : Word) (accelerator : Accelerator) :
    Prop where
  released : accelerator.rst = true
  running : accelerator.socket.sm3RstOut ≠ 1
  waiting : Waiting chain count accelerator.core
  ready : accelerator.vReadyOut = count
  stopped : accelerator.socket.sm3OptOut = 0 → accelerator.core.opt = false

/-- The same accelerator with `opt` set to a value. -/
def Accelerator.setOpt (accelerator : Accelerator) (opt : Bool) : Accelerator :=
  { accelerator with core := { accelerator.core with opt := opt } }

/-- What a command on the signal leaves in `opt`. -/
def Obeys (command : Word) (opt : Bool) : Prop :=
  (command = 0 → opt = false) ∧ (command = 1 → opt = true)

theorem Waiting.setOpt {chain : Chain} {count : Word} {core : Core}
    (waiting : Waiting chain count core) (opt : Bool) :
    Waiting chain count { core with opt := opt } := by
  obtain ⟨table, chained, working, cfCount, w68Count, w64Count, counted⟩ := waiting
  exact ⟨table, chained, working, cfCount, w68Count, w64Count, counted⟩

theorem Rests.setOpt {chain : Chain} {count : Word} {accelerator : Accelerator}
    (rests : Rests chain count accelerator) {opt : Bool}
    (stopped : accelerator.socket.sm3OptOut = 0 → opt = false) :
    Rests chain count (accelerator.setOpt opt) := by
  obtain ⟨released, running, waiting, ready, _⟩ := rests
  exact ⟨released, running, waiting.setOpt opt, ready, stopped⟩

theorem edge_rests {chain : Chain} {count : Word} {accelerator : Accelerator}
    (rests : Rests chain count accelerator) :
    ∃ opt, sm3Hash accelerator = accelerator.setOpt opt ∧
      Obeys accelerator.socket.sm3OptOut opt := by
  have alive : ¬ (accelerator.rst = false ∨ accelerator.socket.sm3RstOut = 1) := by
    rintro (low | held)
    · rw [rests.released] at low
      cases low
    · exact rests.running held
  by_cases started : accelerator.socket.sm3OptOut = 1
  · have other : ¬ accelerator.socket.sm3OptOut = 0 := by
      rw [started]
      decide
    refine ⟨true, ?_, fun none => absurd none other, fun _ => rfl⟩
    rw [sm3Hash]
    simp only [if_pos started, if_neg alive, other, and_false, if_false]
    rfl
  · have idle : ¬ (accelerator.core.opt = true ∧
        accelerator.socket.sm3OptOut = 0) := by
      rintro ⟨opt, none⟩
      rw [rests.stopped none] at opt
      cases opt
    refine ⟨accelerator.core.opt, ?_, rests.stopped,
      fun command => absurd command started⟩
    rw [sm3Hash]
    simp only [if_neg started, if_neg alive, if_neg idle]
    rfl

theorem elapse_rests {chain : Chain} {count : Word} (edges : ℕ)
    {accelerator : Accelerator} (rests : Rests chain count accelerator) :
    ∃ opt, elapse edges accelerator = accelerator.setOpt opt ∧
      Rests chain count (accelerator.setOpt opt) ∧
      (0 < edges → Obeys accelerator.socket.sm3OptOut opt) := by
  induction edges generalizing accelerator with
  | zero =>
      exact ⟨accelerator.core.opt, rfl, rests,
        fun none => absurd none (Nat.lt_irrefl 0)⟩
  | succ edges inductionHypothesis =>
      obtain ⟨opt, first, obeys⟩ := edge_rests rests
      obtain ⟨later, rest, restsLater, obeysLater⟩ :=
        inductionHypothesis (rests.setOpt obeys.1)
      refine ⟨later, ?_, restsLater, fun _ => ?_⟩
      · rw [elapse, step, first, rest]
        rfl
      · cases edges with
        | zero =>
            have same : later = opt := congrArg (fun a => a.core.opt) rest.symm
            rw [same]
            exact obeys
        | succ edges => exact obeysLater (Nat.succ_pos edges)

/-- Edges under the reset clear the core. -/
theorem elapse_reset (edges : ℕ) {accelerator : Accelerator} (some_edge : 0 < edges)
    (held : accelerator.socket.sm3RstOut = 1) :
    elapse edges accelerator =
      { accelerator with core := Core.reset, vReadyOut := 0 } := by
  have edge : ∀ current : Accelerator, current.socket.sm3RstOut = 1 →
      sm3Hash current = { current with core := Core.reset, vReadyOut := 0 } := by
    intro current stopped
    rw [sm3Hash, if_pos (Or.inr stopped)]
  induction edges generalizing accelerator with
  | zero => exact absurd some_edge (Nat.lt_irrefl 0)
  | succ edges inductionHypothesis =>
      rw [elapse, step, edge accelerator held]
      cases edges with
      | zero => rfl
      | succ edges =>
          exact inductionHypothesis (Nat.succ_pos edges) held

/-! ## Writes -/

theorem writeReg_eq (schedule : Schedule) (write : ℕ) {addr : ℕ} {data : Word}
    {accelerator : Accelerator} {socket : Socket}
    (idle : accelerator.socket.writing = false)
    (register : accelerator.socket.setRegister addr data = some socket) :
    ∃ last, writeReg schedule write addr data accelerator =
        { last with socket := socket.finish } ∧
      last = elapse (schedule.during write)
        { elapse (schedule.before write) accelerator with
          socket := { socket with writing := true } } := by
  refine ⟨_, ?_, rfl⟩
  have kept := (elapse_keeps (schedule.before write) accelerator).1
  have begins : step (elapse (schedule.before write) accelerator)
      (.begin addr data) =
        { elapse (schedule.before write) accelerator with
          socket := { socket with writing := true } } := by
    simp [step, Socket.begin, kept, idle, register]
  simp only [writeReg, begins]
  have waiting := (elapse_keeps (schedule.during write)
    { elapse (schedule.before write) accelerator with
      socket := { socket with writing := true } }).1
  simp only [step, waiting, if_true]
  rfl

/-- A register that is set is not passed on yet. -/
theorem setRegister_keeps {socket next : Socket} {addr : ℕ} {data : Word}
    (register : socket.setRegister addr data = some next) :
    next.sm3RstOut = socket.sm3RstOut ∧ next.sm3OptOut = socket.sm3OptOut := by
  simp only [Socket.setRegister] at register
  split_ifs at register <;> cases register <;> exact ⟨rfl, rfl⟩

theorem writeReg_rests (schedule : Schedule) (write : ℕ) {addr : ℕ} {data : Word}
    {chain : Chain} {count : Word} {accelerator : Accelerator} {socket : Socket}
    (idle : accelerator.socket.writing = false)
    (register : accelerator.socket.setRegister addr data = some socket)
    (rests : Rests chain count accelerator) :
    ∃ opt, writeReg schedule write addr data accelerator =
        { accelerator.setOpt opt with socket := socket.finish } ∧
      Obeys accelerator.socket.sm3OptOut opt := by
  obtain ⟨last, written, last_eq⟩ := writeReg_eq schedule write idle register
  obtain ⟨first, elapsed, restsFirst, _⟩ :=
    elapse_rests (schedule.before write) rests
  obtain ⟨rstOut, optOut⟩ := setRegister_keeps register
  have begun : Rests chain count
      { accelerator.setOpt first with socket := { socket with writing := true } } := {
    released := restsFirst.released
    running := by
      change socket.sm3RstOut ≠ 1
      rw [rstOut]
      exact rests.running
    waiting := restsFirst.waiting
    ready := restsFirst.ready
    stopped := by
      intro none
      exact restsFirst.stopped (optOut.symm.trans none) }
  obtain ⟨opt, waited, _, obeys⟩ := elapse_rests (schedule.during write) begun
  refine ⟨opt, ?_, ?_⟩
  · rw [written, last_eq, elapsed, waited]
    rfl
  · rw [← optOut]
    exact obeys (schedule.waits write)

/-- Between writes the outputs of the socket show its registers. -/
structure Quiet (socket : Socket) : Prop where
  idle : socket.writing = false
  rst : socket.sm3RstInReg = socket.sm3RstOut
  opt : socket.sm3OptInReg = socket.sm3OptOut

theorem quiet_finish (socket : Socket) : Quiet socket.finish :=
  ⟨rfl, rfl, rfl⟩

structure Idle (chain : Chain) (count : Word) (accelerator : Accelerator) :
    Prop where
  rests : Rests chain count accelerator
  quiet : Quiet accelerator.socket

theorem setRegister_word (socket : Socket) {index : ℕ} (data : Word)
    (below : index < 16) :
    socket.setRegister (index * 4) data =
      some { socket with xInReg := Function.update socket.xInReg index data } := by
  have first : ¬ index * 4 = 0x60 := by omega
  have second : ¬ index * 4 = 0x64 := by omega
  have word : index * 4 % 4 = 0 ∧ index * 4 < 0x40 := by omega
  have place : index * 4 / 4 = index := by omega
  rw [Socket.setRegister, if_neg first, if_neg second, if_pos word, place]

/-- The words arrive one by one. -/
theorem writeWords_idle (schedule : Schedule) (write : ℕ) (block : MessageBlock)
    {chain : Chain} {count : Word} {accelerator : Accelerator}
    (idle : Idle chain count accelerator) :
    Idle chain count (writeWords schedule write block accelerator) ∧
      concat (writeWords schedule write block accelerator).socket.xInReg 16 =
        block.message := by
  have words : ∀ number ≤ 16, ∃ later,
      (List.range number).foldl
          (fun accelerator i =>
            writeReg schedule (write + i) (i * 4) (block.word i) accelerator)
          accelerator = later ∧
        Idle chain count later ∧
        ∀ j < number, later.socket.xInReg j = block.word j := by
    intro number
    induction number with
    | zero =>
        intro _
        exact ⟨accelerator, rfl, idle,
          fun j none => absurd none (Nat.not_lt_zero j)⟩
    | succ number inductionHypothesis =>
        intro few
        obtain ⟨earlier, written, idleEarlier, arrived⟩ :=
          inductionHypothesis (by omega)
        have register := setRegister_word earlier.socket (block.word number)
          (show number < 16 by omega)
        obtain ⟨opt, wrote, obeys⟩ := writeReg_rests schedule (write + number)
          idleEarlier.quiet.idle register idleEarlier.rests
        rw [List.range_succ, List.foldl_append, written, List.foldl_cons,
          List.foldl_nil, wrote]
        refine ⟨_, rfl, ⟨?_, quiet_finish _⟩, ?_⟩
        · have rests := idleEarlier.rests.setOpt obeys.1
          exact {
            released := rests.released
            running := by
              change earlier.socket.sm3RstInReg ≠ 1
              rw [idleEarlier.quiet.rst]
              exact rests.running
            waiting := rests.waiting
            ready := rests.ready
            stopped := by
              intro none
              exact obeys.1 (idleEarlier.quiet.opt.symm.trans none) }
        · intro j below
          by_cases last : j = number
          · subst last
            exact Function.update_self j _ _
          · exact (Function.update_of_ne last _ _).trans (arrived j (by omega))
  obtain ⟨later, written, idleLater, arrived⟩ := words 16 (Nat.le_refl 16)
  rw [writeWords, written]
  exact ⟨idleLater, concat_congr arrived⟩

/-! ## A block -/

/-- Where the core is, some edges after it was started. -/
def Progress (block : MessageBlock) (chain : Chain) (count : Word) (edges : ℕ)
    (accelerator : Accelerator) : Prop :=
  if edges ≤ 64 then
    Hashing block chain count edges accelerator.core ∧
      accelerator.vReadyOut = count
  else
    Waiting (compress chain block) (count + 1) accelerator.core ∧
      accelerator.core.opt = false ∧ accelerator.vReadyOut = count + 1 ∧
      accelerator.vOut = concat (compress chain block).get 8

theorem Fed.of_keeps {block : MessageBlock} {accelerator later : Accelerator}
    (fed : Fed block accelerator)
    (keeps : later.socket = accelerator.socket ∧ later.rst = accelerator.rst) :
    Fed block later := by
  obtain ⟨released, running, started, message⟩ := fed
  obtain ⟨socket, rst⟩ := keeps
  exact ⟨rst.trans released, socket ▸ running, socket ▸ started,
    socket ▸ message⟩

theorem edge_progress {block : MessageBlock} {chain : Chain} {count : Word}
    {edges : ℕ} {accelerator : Accelerator} (fed : Fed block accelerator)
    (progress : Progress block chain count edges accelerator) :
    Progress block chain count (edges + 1) (sm3Hash accelerator) := by
  rcases Nat.lt_trichotomy edges 64 with early | last | late
  · rw [Progress, if_pos (Nat.le_of_lt early)] at progress
    obtain ⟨core, next, hashing⟩ := edge_hashing fed progress.1 early
    rw [Progress, if_pos (Nat.succ_le_of_lt early), next]
    exact ⟨hashing, progress.2⟩
  · subst last
    rw [Progress, if_pos (Nat.le_refl 64)] at progress
    obtain ⟨core, next, waiting, stopped⟩ := edge_last fed progress.1
    rw [Progress, if_neg (by decide), next]
    exact ⟨waiting, stopped, rfl, rfl⟩
  · rw [Progress, if_neg (by omega)] at progress
    obtain ⟨waiting, stopped, ready, shown⟩ := progress
    have rests : Rests (compress chain block) (count + 1) accelerator :=
      ⟨fed.released, fed.running, waiting, ready, fun _ => stopped⟩
    obtain ⟨opt, next, obeys⟩ := edge_rests rests
    have idle : opt = false := obeys.1 fed.started
    rw [Progress, if_neg (by omega), next, idle]
    exact ⟨(rests.setOpt fun _ => rfl).waiting, rfl, ready, shown⟩

theorem elapse_progress {block : MessageBlock} {chain : Chain} {count : Word}
    (more : ℕ) {edges : ℕ} {accelerator : Accelerator}
    (fed : Fed block accelerator)
    (progress : Progress block chain count edges accelerator) :
    Progress block chain count (edges + more) (elapse more accelerator) := by
  induction more generalizing edges accelerator with
  | zero => exact progress
  | succ more inductionHypothesis =>
      have fedNext := fed.of_keeps (sm3Hash_keeps accelerator)
      have reached := inductionHypothesis fedNext (edge_progress fed progress)
      rw [elapse, step]
      rw [show edges + (more + 1) = edges + 1 + more by omega]
      exact reached

theorem count_ne (count : Word) : count ≠ count + 1 := by
  intro same
  bv_omega

theorem progress_read {block : MessageBlock} {chain : Chain} {count : Word}
    {edges : ℕ} {accelerator : Accelerator}
    (progress : Progress block chain count edges accelerator) :
    accelerator.read 0x68 = some (if edges ≤ 64 then count else count + 1) := by
  by_cases early : edges ≤ 64
  · rw [Progress, if_pos early] at progress
    rw [if_pos early, ← progress.2]
    rfl
  · rw [Progress, if_neg early] at progress
    rw [if_neg early, ← progress.2.2.1]
    rfl

theorem poll_of_reached (count : Word) (pauses : List ℕ)
    (accelerator : Accelerator) :
    poll count count pauses accelerator = some (count, accelerator) := by
  cases pauses <;> rw [poll, if_pos rfl]

/-- A loop that ends has read its count, and the socket is as it was. -/
theorem poll_keeps {count rdata read : Word} {pauses : List ℕ}
    {accelerator later : Accelerator}
    (polled : poll count rdata pauses accelerator = some (read, later)) :
    read = count ∧ later.socket = accelerator.socket ∧
      later.rst = accelerator.rst := by
  induction pauses generalizing rdata accelerator with
  | nil =>
      rw [poll] at polled
      split_ifs at polled with reached
      obtain ⟨rfl, rfl⟩ := Prod.mk.inj (Option.some.inj polled)
      exact ⟨reached, rfl, rfl⟩
  | cons pause pauses inductionHypothesis =>
      rw [poll] at polled
      split_ifs at polled with reached
      · obtain ⟨rfl, rfl⟩ := Prod.mk.inj (Option.some.inj polled)
        exact ⟨reached, rfl, rfl⟩
      · obtain ⟨next, _, rest⟩ := Option.bind_eq_some_iff.mp polled
        obtain ⟨done, socket, rst⟩ := inductionHypothesis rest
        obtain ⟨socketFirst, rstFirst⟩ := elapse_keeps pause accelerator
        exact ⟨done, socket.trans socketFirst, rst.trans rstFirst⟩

/-- The loop ends with the block done, and 65 edges are enough. -/
theorem poll_progress {block : MessageBlock} {chain : Chain} {count : Word}
    (pauses : List ℕ) {edges : ℕ} {accelerator : Accelerator}
    (fed : Fed block accelerator)
    (progress : Progress block chain count edges accelerator) :
    (∀ rdata later, poll (count + 1) count pauses accelerator =
        some (rdata, later) →
      ∃ late, 64 < late ∧ Progress block chain count late later) ∧
      (edges ≤ 64 → 64 < edges + pauses.sum →
        (poll (count + 1) count pauses accelerator).isSome = true) := by
  induction pauses generalizing edges accelerator with
  | nil =>
      have unfolded : poll (count + 1) count [] accelerator = none := by
        rw [poll, if_neg (count_ne count)]
      rw [unfolded]
      refine ⟨by simp, fun early late => ?_⟩
      rw [List.sum_nil] at late
      omega
  | cons pause pauses inductionHypothesis =>
      have reached := elapse_progress pause fed progress
      have fedNext := fed.of_keeps (elapse_keeps pause accelerator)
      have unfolded : poll (count + 1) count (pause :: pauses) accelerator =
          poll (count + 1) (if edges + pause ≤ 64 then count else count + 1)
            pauses (elapse pause accelerator) := by
        rw [poll, if_neg (count_ne count)]
        simp only [progress_read reached, Option.bind_eq_bind, Option.bind_some]
      rw [unfolded]
      by_cases early : edges + pause ≤ 64
      · rw [if_pos early]
        obtain ⟨right, total⟩ := inductionHypothesis fedNext reached
        refine ⟨right, fun _ late => total early ?_⟩
        rw [List.sum_cons] at late
        omega
      · rw [if_neg early, poll_of_reached]
        refine ⟨?_, fun _ _ => rfl⟩
        intro rdata later same
        obtain ⟨rfl, rfl⟩ := Prod.mk.inj (Option.some.inj same)
        exact ⟨edges + pause, Nat.lt_of_not_le early, reached⟩

/-- The output registers show a chain. -/
def Shows (chain : Chain) (accelerator : Accelerator) : Prop :=
  accelerator.vOut = concat chain.get 8

theorem Shows.outputs {chain : Chain} {accelerator : Accelerator}
    (shows : Shows chain accelerator) : accelerator.outputs = chain := by
  have word : ∀ index < 8,
      accelerator.vOut.extractLsb' (32 * (8 - 1 - index)) 32 = chain.get index := by
    intro index below
    rw [shows]
    exact extractLsb'_concat chain.get below
  simp only [Accelerator.outputs]
  rw [word 0 (by decide), word 1 (by decide), word 2 (by decide),
    word 3 (by decide), word 4 (by decide), word 5 (by decide),
    word 6 (by decide), word 7 (by decide)]
  rfl

theorem count_succ (index : ℕ) :
    BitVec.ofNat 32 (index + 1) = (BitVec.ofNat 32 index + 1 : Word) := by
  exact BitVec.ofNat_add index 1

/-- Starting the core when the words are there. -/
theorem start_progress (schedule : Schedule) (write : ℕ) {block : MessageBlock}
    {chain : Chain} {count : Word} {accelerator : Accelerator}
    (idle : Idle chain count accelerator)
    (arrived : concat accelerator.socket.xInReg 16 = block.message) :
    ∃ later, writeReg schedule (write + 1) 0x64 0
        (writeReg schedule write 0x64 1 accelerator) = later ∧
      Fed block later ∧ Progress block chain count 0 later ∧
      Quiet later.socket := by
  obtain ⟨armed, wrote, _⟩ := writeReg_rests schedule write idle.quiet.idle
    (show accelerator.socket.setRegister 0x64 1 =
      some { accelerator.socket with sm3OptInReg := 1 } from rfl) idle.rests
  have running : accelerator.socket.sm3RstInReg ≠ 1 := by
    rw [idle.quiet.rst]
    exact idle.rests.running
  have rests : Rests chain count { accelerator.setOpt armed with
      socket := Socket.finish { accelerator.socket with sm3OptInReg := 1 } } := {
    released := idle.rests.released
    running := running
    waiting := idle.rests.waiting.setOpt armed
    ready := idle.rests.ready
    stopped := fun none => absurd (show (1 : Word) = 0 from none) (by decide) }
  obtain ⟨opt, started, obeys⟩ := writeReg_rests schedule (write + 1) rfl
    (show Socket.setRegister (Socket.finish
        { accelerator.socket with sm3OptInReg := 1 }) 0x64 0 =
      some { Socket.finish { accelerator.socket with sm3OptInReg := 1 } with
        sm3OptInReg := 0 } from rfl) rests
  have on : opt = true := obeys.2 rfl
  subst on
  rw [wrote, started]
  refine ⟨_, rfl, ⟨idle.rests.released, running, rfl, arrived⟩, ?_,
    quiet_finish _⟩
  exact ⟨(idle.rests.waiting.setOpt true).hashing rfl block, idle.rests.ready⟩

/-- One block: the next chain is in the core and in the output registers. -/
theorem hashBlock_spec (schedule : Schedule) (index : ℕ) (block : MessageBlock)
    {chain : Chain} {accelerator : Accelerator}
    (idle : Idle chain (BitVec.ofNat 32 index) accelerator) :
    (∀ rdata later, hashBlock schedule index block (BitVec.ofNat 32 index)
        accelerator = some (rdata, later) →
      rdata = BitVec.ofNat 32 (index + 1) ∧
        Idle (compress chain block) (BitVec.ofNat 32 (index + 1)) later ∧
        Shows (compress chain block) later) ∧
      (65 ≤ (schedule.polls index).sum →
        (hashBlock schedule index block (BitVec.ofNat 32 index)
          accelerator).isSome = true) := by
  obtain ⟨idleWords, arrived⟩ :=
    writeWords_idle schedule (2 + 18 * index) block idle
  obtain ⟨started, wrote, fed, progress, quiet⟩ :=
    start_progress schedule (2 + 18 * index + 16) idleWords arrived
  have unfolded : hashBlock schedule index block (BitVec.ofNat 32 index)
      accelerator = poll (BitVec.ofNat 32 index + 1) (BitVec.ofNat 32 index)
        (schedule.polls index) started := by
    rw [hashBlock, count_succ, ← wrote]
  obtain ⟨right, total⟩ := poll_progress (schedule.polls index) fed progress
  rw [unfolded]
  refine ⟨?_, fun enough => total (Nat.zero_le 64) (by omega)⟩
  intro rdata later polled
  obtain ⟨late, beyond, ended⟩ := right rdata later polled
  obtain ⟨done, socket, rst⟩ := poll_keeps polled
  rw [Progress, if_neg (Nat.not_le_of_lt beyond)] at ended
  obtain ⟨waiting, stopped, ready, shown⟩ := ended
  have fedLater := fed.of_keeps ⟨socket, rst⟩
  rw [count_succ]
  refine ⟨done, ⟨⟨fedLater.released, fedLater.running, waiting, ready,
    fun _ => stopped⟩, ?_⟩, shown⟩
  rw [socket]
  exact quiet

/-! ## Whole messages -/

/-- What the output registers show, block after block. -/
def prefixes (chain : Chain) (blocks : List MessageBlock) : List Chain :=
  (List.range blocks.length).map fun k => (blocks.take (k + 1)).foldl compress chain

theorem prefixes_cons (chain : Chain) (block : MessageBlock)
    (blocks : List MessageBlock) :
    prefixes chain (block :: blocks) =
      compress chain block :: prefixes (compress chain block) blocks := by
  rw [prefixes, List.length_cons, List.range_succ_eq_map, List.map_cons,
    List.map_map]
  rfl

theorem hashBlocks_spec (schedule : Schedule) (blocks : List MessageBlock)
    (index : ℕ) {chain : Chain} {accelerator : Accelerator}
    (idle : Idle chain (BitVec.ofNat 32 index) accelerator) :
    (∀ shown later, hashBlocks schedule index blocks (BitVec.ofNat 32 index)
        accelerator = some (shown, later) →
      shown = prefixes chain blocks ∧
        (∃ count, Idle (blocks.foldl compress chain) count later) ∧
        (Shows chain accelerator ∨ blocks ≠ [] →
          Shows (blocks.foldl compress chain) later)) ∧
      ((∀ k < blocks.length, 65 ≤ (schedule.polls (index + k)).sum) →
        (hashBlocks schedule index blocks (BitVec.ofNat 32 index)
          accelerator).isSome = true) := by
  induction blocks generalizing index chain accelerator with
  | nil =>
      refine ⟨?_, fun _ => rfl⟩
      intro shown later same
      obtain ⟨rfl, rfl⟩ := Prod.mk.inj (Option.some.inj same)
      refine ⟨rfl, ⟨_, idle⟩, ?_⟩
      rintro (shows | none)
      · exact shows
      · exact absurd rfl none
  | cons block blocks inductionHypothesis =>
      obtain ⟨right, total⟩ := hashBlock_spec schedule index block idle
      cases hashed : hashBlock schedule index block (BitVec.ofNat 32 index)
          accelerator with
      | none =>
          have failed : hashBlocks schedule index (block :: blocks)
              (BitVec.ofNat 32 index) accelerator = none := by
            rw [hashBlocks, hashed]
            rfl
          rw [failed]
          refine ⟨by simp, fun enough => ?_⟩
          have ends := total (enough 0 (by simp))
          rw [hashed] at ends
          exact ends
      | some result =>
          obtain ⟨rdata, next⟩ := result
          obtain ⟨rfl, idleNext, shows⟩ := right rdata next hashed
          obtain ⟨rightRest, totalRest⟩ := inductionHypothesis (index + 1) idleNext
          have unfolded : hashBlocks schedule index (block :: blocks)
              (BitVec.ofNat 32 index) accelerator =
                (hashBlocks schedule (index + 1) blocks
                  (BitVec.ofNat 32 (index + 1)) next).map fun (shown, later) =>
                    (next.outputs :: shown, later) := by
            rw [hashBlocks, hashed]
            simp only [Option.bind_eq_bind, Option.bind_some]
            cases hashBlocks schedule (index + 1) blocks
              (BitVec.ofNat 32 (index + 1)) next <;> rfl
          rw [unfolded]
          refine ⟨?_, fun enough => ?_⟩
          · intro shown later same
            obtain ⟨⟨rest, last⟩, ran, result_eq⟩ := Option.map_eq_some_iff.mp same
            obtain ⟨rfl, rfl⟩ := Prod.mk.inj result_eq
            obtain ⟨rfl, idleLast, showsLast⟩ := rightRest rest last ran
            refine ⟨?_, idleLast, fun _ => showsLast (Or.inl shows)⟩
            rw [prefixes_cons, shows.outputs]
          · rw [Option.isSome_map]
            apply totalRest
            intro k below
            have later := enough (k + 1) (by simpa using below)
            rwa [show index + (k + 1) = index + 1 + k by omega] at later

/-- Under the reset the count is soon zero. -/
theorem poll_reset (pauses : List ℕ) (rdata : Word) {accelerator : Accelerator}
    (held : accelerator.socket.sm3RstOut = 1) (some_edge : 0 < pauses.sum) :
    (poll 0 rdata pauses accelerator).isSome = true := by
  induction pauses generalizing rdata accelerator with
  | nil => exact absurd some_edge (Nat.lt_irrefl 0)
  | cons pause pauses inductionHypothesis =>
      rw [poll]
      split_ifs with reached
      · rfl
      · cases pause with
        | zero =>
            rw [List.sum_cons, Nat.zero_add] at some_edge
            exact inductionHypothesis accelerator.vReadyOut held some_edge
        | succ pause =>
            rw [elapse_reset (pause + 1) (Nat.succ_pos pause) held]
            change (poll 0 0 pauses _).isSome = true
            rw [poll_of_reached]
            rfl

/-- The end of the reset. -/
theorem release_idle (schedule : Schedule) (write : ℕ) {accelerator : Accelerator}
    (released : accelerator.rst = true) (quiet : Quiet accelerator.socket)
    (held : accelerator.socket.sm3RstOut = 1) :
    Idle iv 0 (writeReg schedule write 0x60 0 accelerator) := by
  obtain ⟨last, wrote, last_eq⟩ := writeReg_eq schedule write quiet.idle
    (show accelerator.socket.setRegister 0x60 0 =
      some { accelerator.socket with sm3RstInReg := 0 } from rfl)
  replace last_eq := last_eq.trans
    (elapse_reset (schedule.during write) (schedule.waits write) held)
  have alive : last.rst = true := by
    rw [last_eq]
    exact (elapse_keeps (schedule.before write) accelerator).2.trans released
  have core : last.core = Core.reset ∧ last.vReadyOut = 0 := by
    rw [last_eq]
    exact ⟨rfl, rfl⟩
  rw [wrote]
  refine ⟨⟨alive, ?_, ?_, core.2, ?_⟩, quiet_finish _⟩
  · change (0 : Word) ≠ 1
    decide
  · change Waiting iv 0 last.core
    rw [core.1]
    exact waiting_reset
  · intro _
    change last.core.opt = false
    rw [core.1]
    rfl

/-- The reset leaves the core waiting for the first block, whatever it was
doing. -/
theorem reset_idle (schedule : Schedule) (rdata : Word) {accelerator : Accelerator}
    (released : accelerator.rst = true)
    (idle : accelerator.socket.writing = false) :
    (∀ read later, poll 0 rdata schedule.resetPolls
        (writeReg schedule 0 0x60 1 accelerator) = some (read, later) →
      read = 0 ∧ Idle iv 0 (writeReg schedule 1 0x60 0 later)) ∧
      (0 < schedule.resetPolls.sum →
        (poll 0 rdata schedule.resetPolls
          (writeReg schedule 0 0x60 1 accelerator)).isSome = true) := by
  obtain ⟨last, wrote, last_eq⟩ := writeReg_eq schedule 0 idle
    (show accelerator.socket.setRegister 0x60 1 =
      some { accelerator.socket with sm3RstInReg := 1 } from rfl)
  have alive : last.rst = true := by
    rw [last_eq, (elapse_keeps _ _).2]
    exact (elapse_keeps _ _).2.trans released
  rw [wrote]
  refine ⟨?_, poll_reset schedule.resetPolls rdata rfl⟩
  intro read later polled
  obtain ⟨done, socket, rst⟩ := poll_keeps polled
  have quiet : Quiet later.socket := by
    rw [socket]
    exact quiet_finish _
  have held : later.socket.sm3RstOut = 1 := by
    rw [socket]
    rfl
  exact ⟨done, release_idle schedule 1 (rst.trans alive) quiet held⟩

/-- The driver of a non-empty list of blocks. -/
theorem sm3Test_spec (schedule : Schedule) (rdata : Word)
    {accelerator : Accelerator} (released : accelerator.rst = true)
    (idle : accelerator.socket.writing = false) {blocks : List MessageBlock}
    (nonempty : blocks ≠ []) :
    (∀ shown later, sm3Test schedule blocks rdata accelerator =
        some (shown, later) →
      (∀ edges, (elapse edges later).outputs = Software.sm3 blocks) ∧
        shown = (List.range blocks.length).map fun k =>
          Software.sm3 (blocks.take (k + 1))) ∧
      (0 < schedule.resetPolls.sum →
        (∀ k < blocks.length, 65 ≤ (schedule.polls k).sum) →
        (sm3Test schedule blocks rdata accelerator).isSome = true) := by
  obtain ⟨resetRight, resetTotal⟩ := reset_idle schedule rdata released idle
  cases reset : poll 0 rdata schedule.resetPolls
      (writeReg schedule 0 0x60 1 accelerator) with
  | none =>
      have failed : sm3Test schedule blocks rdata accelerator = none := by
        simp only [sm3Test, reset, Option.bind_eq_bind, Option.bind_none]
      rw [failed]
      refine ⟨by simp, fun some_edge _ => ?_⟩
      have ends := resetTotal some_edge
      rw [reset] at ends
      exact ends
  | some result =>
      obtain ⟨read, cleared⟩ := result
      obtain ⟨rfl, idleFirst⟩ := resetRight read cleared reset
      have unfolded : sm3Test schedule blocks rdata accelerator =
          hashBlocks schedule 0 blocks (BitVec.ofNat 32 0)
            (writeReg schedule 1 0x60 0 cleared) := by
        simp only [sm3Test, reset, Option.bind_eq_bind, Option.bind_some]
        rfl
      obtain ⟨right, total⟩ := hashBlocks_spec schedule blocks 0 idleFirst
      rw [unfolded]
      refine ⟨?_, fun _ enough => total fun k below => ?_⟩
      · intro shown later ran
        obtain ⟨shown_eq, ⟨count, idleLater⟩, shows⟩ := right shown later ran
        refine ⟨fun edges => ?_, ?_⟩
        · obtain ⟨opt, elapsed, _⟩ := elapse_rests edges idleLater.rests
          rw [elapsed, sm3_eq]
          exact Shows.outputs (shows (Or.inr nonempty))
        · rw [shown_eq]
          simp only [sm3_eq]
          rfl
      · rw [Nat.zero_add]
        exact enough k below

/-- After power-on. -/
def Accelerator.powered : Accelerator :=
  { Accelerator.initial with rst := true }

/-- One edge in every write and before every read of the completion count. -/
def everyEdge : Schedule where
  before := fun _ => 0
  during := fun _ => 1
  resetPolls := [1]
  polls := fun _ => List.replicate 65 1
  waits := fun _ => Nat.one_pos

theorem sm3Test_powered :
    (sm3Test everyEdge [Vector.replicate 64 0x61] 1 .powered).isSome = true :=
  (sm3Test_spec everyEdge 1 rfl rfl (List.cons_ne_nil _ [])).2 (by decide)
    fun _ _ => by simp [everyEdge]

/-- Without a block the output registers do not hold the standard `IV`. -/
theorem outputs_of_nil :
    ∃ shown later, sm3Test everyEdge [] 1 .powered = some (shown, later) ∧
      later.outputs ≠ Software.sm3 [] := by
  refine ⟨[], _, rfl, ?_⟩
  decide

end Sm3

end RiscvVp
