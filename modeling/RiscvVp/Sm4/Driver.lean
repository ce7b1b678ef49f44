import RiscvVp.Sm4.CounterSafety

/-!
# The driver

`sw/sm4_hw/sm4.h` on a little-endian core.  The driver resets the accelerator,
loads a key and expands it, loads a block and encrypts it, and loads the result
and decrypts it, waiting each time until the state register tells that it is
done.  How many clock edges pass between its accesses is left open; the wait
inside a write takes one at least.
-/

namespace RiscvVp

namespace Sm4

open Feistel

/-- The clock edges that pass while the driver runs, each with the order in
which the core's processes take their turns. -/
structure Schedule : Type where
  before : ℕ → List Bool
  /-- The edges in the `wait` of a write. -/
  during : ℕ → List Bool
  /-- The edges between the reads of the state register. -/
  polls : ℕ → List (List Bool)
  reads : ℕ → List Bool
  waits : ∀ write, during write ≠ []

def elapse : List Bool → Accelerator → Option Accelerator
  | [], accelerator => some accelerator
  | keyExpFirst :: edges, accelerator => do
      elapse edges (← edge keyExpFirst accelerator)

section Driver

variable (schedule : Schedule)

/-- `writeReg32`, the driver's `write`-th one. -/
def writeReg (write addr : ℕ) (data : Word) (accelerator : Accelerator) :
    Option Accelerator := do
  let accelerator ← elapse (schedule.before write) accelerator
  let accelerator ← step accelerator (.begin addr data)
  let accelerator ← elapse (schedule.during write) accelerator
  step accelerator .finish

/-- The loops over `addr_x_in_0` to `addr_x_in_3`. -/
def writeWords (write : ℕ) (block : Block Word) (accelerator : Accelerator) :
    Option Accelerator := do
  let accelerator ← writeReg schedule write 0x00 block.w0 accelerator
  let accelerator ← writeReg schedule (write + 1) 0x04 block.w1 accelerator
  let accelerator ← writeReg schedule (write + 2) 0x08 block.w2 accelerator
  writeReg schedule (write + 3) 0x0c block.w3 accelerator

/-- The loops on `addr_state`; there is no result when the edges run out. -/
def poll (state : Word) :
    List (List Bool) → Accelerator → Option Accelerator
  | [], accelerator =>
      if accelerator.read 0x24 = some state then some accelerator else none
  | edges :: pauses, accelerator =>
      if accelerator.read 0x24 = some state then some accelerator
      else do poll state pauses (← elapse edges accelerator)

def readReg (read addr : ℕ) (accelerator : Accelerator) :
    Option (Word × Accelerator) := do
  let accelerator ← elapse (schedule.reads read) accelerator
  return (← accelerator.read addr, accelerator)

/-- The loops over `addr_y_out_0` to `addr_y_out_3`. -/
def readWords (read : ℕ) (accelerator : Accelerator) :
    Option (Block Word × Accelerator) := do
  let (w0, accelerator) ← readReg schedule read 0x10 accelerator
  let (w1, accelerator) ← readReg schedule (read + 1) 0x14 accelerator
  let (w2, accelerator) ← readReg schedule (read + 2) 0x18 accelerator
  let (w3, accelerator) ← readReg schedule (read + 3) 0x1c accelerator
  return (⟨w0, w1, w2, w3⟩, accelerator)

/-- `sm4_test`: the ciphertext, and what it is decrypted to. -/
def sm4Test (key plaintext : Block Word) (accelerator : Accelerator) :
    Option (Block Word × Block Word × Accelerator) := do
  let accelerator ← writeReg schedule 0 0x20 0 accelerator
  let accelerator ← writeWords schedule 1 key accelerator
  let accelerator ← writeReg schedule 5 0x20 1 accelerator
  let accelerator ← poll 2 (schedule.polls 0) accelerator
  let accelerator ← writeWords schedule 6 plaintext accelerator
  let accelerator ← writeReg schedule 10 0x20 2 accelerator
  let accelerator ← poll 4 (schedule.polls 1) accelerator
  let (ciphertext, accelerator) ← readWords schedule 0 accelerator
  let accelerator ← writeWords schedule 11 ciphertext accelerator
  let accelerator ← writeReg schedule 15 0x20 3 accelerator
  let accelerator ← poll 6 (schedule.polls 2) accelerator
  let (plaintext, accelerator) ← readWords schedule 4 accelerator
  return (ciphertext, plaintext, accelerator)

end Driver

/-! ## Phases -/

/-- A command is in force and the signals and variables are in a phase. -/
structure Resting (command : Word) (phase : Signals → Core → Prop)
    (accelerator : Accelerator) : Prop where
  counted : Counted accelerator
  released : accelerator.rst = true
  inForce : accelerator.socket.dataOptOut = command
  phase : phase accelerator.signals accelerator.core

/-- Under a command an edge takes one phase to another. -/
def Leads (command : Word) (phase next : Signals → Core → Prop) : Prop :=
  ∀ accelerator keyExpFirst, Resting command phase accelerator →
    ∃ later, edge keyExpFirst accelerator = some later ∧
      later.socket = accelerator.socket ∧ Resting command next later

/-- The core is in its reset and the cipher disabled. -/
def Cleared (signals : Signals) (_ : Core) : Prop :=
  signals.coreRst = false ∧ signals.encDecEn = false

def Disabled (signals : Signals) (_ : Core) : Prop :=
  signals.encDecEn = false

/-- The key has been expanded and the cipher is disabled. -/
structure Loaded (key : Block Word) (encdataReady decdataReady : Bool) (j : ℕ)
    (dataState : Word) (signals : Signals) (core : Core) : Prop where
  running : signals.coreRst = true
  rkReady : signals.rkReady = true
  expanded : Expanded key 32 core.rk
  disabled : signals.encDecEn = false
  encdata : signals.encdataReady = encdataReady
  decdata : signals.decdataReady = decdataReady
  round : core.j = j
  state : signals.dataState = dataState

theorem elapse_resting {command : Word} {phase : Signals → Core → Prop}
    (quiet : Leads command phase phase) (edges : List Bool)
    {accelerator : Accelerator} (resting : Resting command phase accelerator) :
    ∃ later, elapse edges accelerator = some later ∧
      later.socket = accelerator.socket ∧ Resting command phase later := by
  induction edges generalizing accelerator with
  | nil => exact ⟨accelerator, rfl, rfl, resting⟩
  | cons keyExpFirst edges inductionHypothesis =>
      obtain ⟨next, stepped, socket, restingNext⟩ :=
        quiet accelerator keyExpFirst resting
      obtain ⟨later, elapsed, socketLater, restingLater⟩ :=
        inductionHypothesis restingNext
      refine ⟨later, ?_, socketLater.trans socket, restingLater⟩
      simp [elapse, stepped, elapsed]

/-- At least one edge reaches a phase that edges then keep. -/
theorem elapse_leads {command : Word} {phase next : Signals → Core → Prop}
    (leads : Leads command phase next) (quiet : Leads command next next)
    {edges : List Bool} (some_edge : edges ≠ []) {accelerator : Accelerator}
    (resting : Resting command phase accelerator) :
    ∃ later, elapse edges accelerator = some later ∧
      later.socket = accelerator.socket ∧ Resting command next later := by
  cases edges with
  | nil => exact absurd rfl some_edge
  | cons keyExpFirst edges =>
      obtain ⟨reached, stepped, socket, restingNext⟩ :=
        leads accelerator keyExpFirst resting
      obtain ⟨later, elapsed, socketLater, restingLater⟩ :=
        elapse_resting quiet edges restingNext
      refine ⟨later, ?_, socketLater.trans socket, restingLater⟩
      simp [elapse, stepped, elapsed]

/-- A write in a phase that edges keep, or that they lead out of. -/
theorem writeReg_resting (schedule : Schedule) (write : ℕ) {addr : ℕ} {data : Word}
    {command : Word} {phase next : Signals → Core → Prop} {socket : Socket}
    {accelerator : Accelerator} (quiet : Leads command phase phase)
    (leads : Leads command phase next) (quietNext : Leads command next next)
    (idle : accelerator.socket.writing = false)
    (register : accelerator.socket.setRegister addr data = some socket)
    (unchanged : socket.dataOptOut = accelerator.socket.dataOptOut)
    (resting : Resting command phase accelerator) :
    ∃ later, writeReg schedule write addr data accelerator = some later ∧
      later.socket = socket.finish ∧
      Resting socket.controlInReg next later := by
  obtain ⟨first, elapsed, socketFirst, restingFirst⟩ :=
    elapse_resting quiet (schedule.before write) resting
  have begins : step first (.begin addr data) =
      some { first with socket := { socket with writing := true } } := by
    simp [step, Socket.begin, socketFirst, idle, register]
  have counted : Counted
      { first with socket := { socket with writing := true } } :=
    counted_step restingFirst.counted begins
  have restingBegun : Resting command phase
      { first with socket := { socket with writing := true } } :=
    ⟨counted, restingFirst.released, unchanged.trans resting.inForce,
      restingFirst.phase⟩
  obtain ⟨second, waited, socketSecond, restingSecond⟩ :=
    elapse_leads leads quietNext (schedule.waits write) restingBegun
  have finishes : step second .finish =
      some { second with socket := socket.finish } := by
    simp [step, socketSecond, Socket.finish]
  refine ⟨{ second with socket := socket.finish }, ?_, rfl, ?_⟩
  · simp [writeReg, elapsed, begins, waited, finishes]
  · exact ⟨counted_step restingSecond.counted finishes,
      restingSecond.released, rfl, restingSecond.phase⟩

/-- The four words of a block arrive while the command stays in force. -/
theorem writeWords_resting (schedule : Schedule) (write : ℕ) (block : Block Word)
    {command : Word} {phase : Signals → Core → Prop} {accelerator : Accelerator}
    (quiet : Leads command phase phase)
    (idle : accelerator.socket.writing = false)
    (register : accelerator.socket.controlInReg = command)
    (resting : Resting command phase accelerator) :
    ∃ later, writeWords schedule write block accelerator = some later ∧
      later.socket.writing = false ∧ later.socket.xIn = concat block ∧
      Resting command phase later := by
  obtain ⟨first, wrote, socket, resting⟩ := writeReg_resting schedule write
    quiet quiet quiet idle
      (show accelerator.socket.setRegister 0x00 block.w0 = _ from rfl) rfl resting
  obtain ⟨second, wroteSecond, socketSecond, resting⟩ :=
    writeReg_resting schedule (write + 1) quiet quiet quiet (by simp [socket, Socket.finish])
      (show first.socket.setRegister 0x04 block.w1 = _ from rfl) rfl
      (by simpa [register] using resting)
  obtain ⟨third, wroteThird, socketThird, resting⟩ :=
    writeReg_resting schedule (write + 2) quiet quiet quiet
      (by simp [socketSecond, Socket.finish])
      (show second.socket.setRegister 0x08 block.w2 = _ from rfl) rfl
      (by simpa [register, socket, Socket.finish] using resting)
  obtain ⟨fourth, wroteFourth, socketFourth, resting⟩ :=
    writeReg_resting schedule (write + 3) quiet quiet quiet
      (by simp [socketThird, Socket.finish])
      (show third.socket.setRegister 0x0c block.w3 = _ from rfl) rfl
      (by simpa [register, socket, socketSecond, Socket.finish] using resting)
  refine ⟨fourth, ?_, ?_, ?_, ?_⟩
  · simp [writeWords, wrote, wroteSecond, wroteThird, wroteFourth]
  · simp [socketFourth, Socket.finish]
  · simp [socketFourth, socketThird, socketSecond, socket, Socket.finish]
  · simpa [register, socket, socketSecond, socketThird, Socket.finish]
      using resting

/-! ## Edges in a phase -/

theorem edge_exists {accelerator : Accelerator} (keyExpFirst : Bool)
    (counted : Counted accelerator)
    (ends : ¬ (accelerator.signals.encDecEn = true ∧ accelerator.core.j = 32)) :
    ∃ later, edge keyExpFirst accelerator = some later := by
  have safe : Safe accelerator := by
    rw [counted.safe_iff]
    exact fun stranded => ends stranded.2
  obtain ⟨_, _, total⟩ := safe
  exact Option.isSome_iff_exists.mp (total keyExpFirst)

/-- The socket and the reset signal are not for an edge to change. -/
theorem edge_keeps {keyExpFirst : Bool} {accelerator later : Accelerator}
    (counted : Counted accelerator)
    (stepped : edge keyExpFirst accelerator = some later) :
    later.socket = accelerator.socket ∧ later.rst = accelerator.rst := by
  obtain ⟨_, _, _, _, _, _, rfl⟩ := edge_eq_some counted.stable stepped
  exact ⟨rfl, rfl⟩

theorem Resting.edge {command : Word} {phase next : Signals → Core → Prop}
    {accelerator later : Accelerator} {keyExpFirst : Bool}
    (resting : Resting command phase accelerator)
    (stepped : edge keyExpFirst accelerator = some later)
    (reached : next later.signals later.core) :
    later.socket = accelerator.socket ∧ Resting command next later := by
  obtain ⟨socket, rst⟩ := edge_keeps resting.counted stepped
  have inForce : later.socket.dataOptOut = command := by
    rw [socket]
    exact resting.inForce
  exact ⟨socket, counted_edge resting.counted stepped,
    rst.trans resting.released, inForce, reached⟩

theorem disabled_leads : Leads 0 Disabled Cleared := by
  intro accelerator keyExpFirst resting
  have disabled : accelerator.signals.encDecEn = false := resting.phase
  obtain ⟨later, stepped⟩ := edge_exists keyExpFirst resting.counted
    (fun stranded => by simp [disabled] at stranded)
  refine ⟨later, stepped, resting.edge stepped ?_⟩
  obtain ⟨_, _, _, _, _, _, rfl⟩ :=
    edge_eq_some resting.counted.stable stepped
  simp [Cleared, Accelerator.settled, quiesce, evaluated, controlProc,
    resting.released, resting.inForce, disabled]

theorem Leads.weaken {command : Word} {phase weaker next : Signals → Core → Prop}
    (leads : Leads command weaker next)
    (implies : ∀ signals core, phase signals core → weaker signals core) :
    Leads command phase next := by
  intro accelerator keyExpFirst resting
  exact leads accelerator keyExpFirst ⟨resting.counted, resting.released,
    resting.inForce, implies _ _ resting.phase⟩

theorem cleared_leads : Leads 0 Cleared Cleared :=
  disabled_leads.weaken fun _ _ cleared => cleared.2

theorem disabled_keeps : Leads 0 Disabled Disabled := by
  intro accelerator keyExpFirst resting
  obtain ⟨later, stepped, socket, cleared⟩ :=
    disabled_leads accelerator keyExpFirst resting
  exact ⟨later, stepped, socket, cleared.counted, cleared.released,
    cleared.inForce, cleared.phase.2⟩

/-- Where the core rests when a command has been carried out. -/
inductive Completed : Word → Bool → Bool → Word → Prop
  | key : Completed 1 false false 2
  | encryption : Completed 2 true false 4
  | decryption : Completed 3 true true 6

theorem loaded_leads {command : Word} {key : Block Word}
    {encdataReady decdataReady : Bool} {j : ℕ} {dataState : Word}
    (completed : Completed command encdataReady decdataReady dataState) :
    Leads command (Loaded key encdataReady decdataReady j dataState)
      (Loaded key encdataReady decdataReady j dataState) := by
  intro accelerator keyExpFirst resting
  have loaded := resting.phase
  obtain ⟨later, stepped⟩ := edge_exists keyExpFirst resting.counted
    (fun stranded => by simp [loaded.disabled] at stranded)
  refine ⟨later, stepped, resting.edge stepped ?_⟩
  obtain ⟨rkReady, i, rk, crypted, keyed, ciphered, same⟩ :=
    edge_of_running resting.counted.stable loaded.running stepped
  have idle : accelerator.signals.keyExpEn = false := by
    simp [resting.counted.enabled loaded.running, loaded.rkReady]
  cases keyed with
  | round enabled => simp [idle] at enabled
  | last enabled => simp [idle] at enabled
  | idle =>
  cases ciphered with
  | round enabled => simp [loaded.disabled] at enabled
  | encrypted enabled => simp [loaded.disabled] at enabled
  | decrypted enabled => simp [loaded.disabled] at enabled
  | idle =>
  have running : (controlProc accelerator.rst accelerator.socket
      accelerator.signals).coreRst = true := by
    rw [controlProc_coreRst resting.released loaded.running, resting.inForce]
    cases completed <;> decide
  rw [same, settled_of_running rfl running]
  exact {
    running := running
    rkReady := loaded.rkReady
    expanded := loaded.expanded
    disabled := by
      cases completed <;> simp [controlProc, resting.released, resting.inForce,
        loaded.rkReady, loaded.encdata, loaded.decdata, loaded.disabled]
    encdata := loaded.encdata
    decdata := loaded.decdata
    round := loaded.round
    state := by
      cases completed <;> simp [reported, evaluated, controlProc, resting.released, resting.inForce,
        loaded.rkReady, loaded.encdata, loaded.decdata, loaded.disabled] }

/-- Only an enabled cipher writes the data output. -/
theorem edge_dataOut {keyExpFirst : Bool} {accelerator later : Accelerator}
    (stable : Stable accelerator) (disabled : accelerator.signals.encDecEn = false)
    (stepped : edge keyExpFirst accelerator = some later) :
    later.signals.dataOut = accelerator.signals.dataOut := by
  have kept : ∀ signals : Signals, (quiesce signals).dataOut = signals.dataOut := by
    intro signals
    cases running : signals.coreRst <;> simp [quiesce, running]
  obtain ⟨rkReady, i, rk, crypted, _, ciphered, rfl⟩ :=
    edge_eq_some stable stepped
  have output : crypted.dataOut = accelerator.signals.dataOut := by
    cases running : accelerator.signals.coreRst <;>
      simp only [cryptStep, running, disabled] at ciphered <;> cases ciphered <;>
        rfl
  exact (kept _).trans output

/-- A cipher has ended and its result is in the data output. -/
def Ended (mode : Bool) (key block : Block Word) (signals : Signals)
    (core : Core) : Prop :=
  Loaded key true (!mode) (if mode then 0 else 32) (if mode then 4 else 6)
      signals core ∧
    signals.dataOut = concat (outcome mode key block)

/-- The control word that starts a cipher. -/
def modeCommand (mode : Bool) : Word :=
  if mode then 2 else 3

theorem ended_leads (mode : Bool) (key block : Block Word) :
    Leads (modeCommand mode) (Ended mode key block) (Ended mode key block) := by
  intro accelerator keyExpFirst resting
  obtain ⟨loaded, output⟩ := resting.phase
  have completed : Completed (modeCommand mode) true (!mode)
      (if mode then 4 else 6) := by
    cases mode
    · exact .decryption
    · exact .encryption
  have atRest : Resting (modeCommand mode)
      (Loaded key true (!mode) (if mode then 0 else 32) (if mode then 4 else 6))
      accelerator :=
    ⟨resting.counted, resting.released, resting.inForce, loaded⟩
  obtain ⟨later, stepped, socket, restingLater⟩ :=
    loaded_leads completed accelerator keyExpFirst atRest
  have kept := edge_dataOut resting.counted.stable loaded.disabled stepped
  exact ⟨later, stepped, socket, restingLater.counted, restingLater.released,
    restingLater.inForce, restingLater.phase, kept.trans output⟩

/-! ## The key schedule at work -/

/-- After a number of edges on the key. -/
structure Expanding (key : Block Word) (edges : ℕ) (signals : Signals)
    (core : Core) : Prop where
  running : signals.coreRst = true
  key_eq : signals.key = concat key
  count : core.i = min edges 32
  expanded : Expanded key core.i core.rk
  disabled : signals.encDecEn = false
  encdata : signals.encdataReady = false
  decdata : signals.decdataReady = false
  round : core.j = 0
  state : signals.dataState = if edges < 32 then 1 else 2

/-- The key schedule, edge by edge after the command. -/
def keyPhase (key : Block Word) : ℕ → Signals → Core → Prop
  | 0 => Cleared
  | edges + 1 => Expanding key edges

/-- Under a command with its data, edges lead from each phase to the next. -/
def Advances (command : Word) (words : Block Word)
    (phases : ℕ → Signals → Core → Prop) : Prop :=
  ∀ edges accelerator keyExpFirst, Resting command (phases edges) accelerator →
    accelerator.socket.dataOut = concat words →
    ∃ later, edge keyExpFirst accelerator = some later ∧
      later.socket = accelerator.socket ∧
      Resting command (phases (edges + 1)) later

theorem key_advances (key : Block Word) : Advances 1 key (keyPhase key) := by
  intro edges accelerator keyExpFirst resting words
  have commanded : controlProc accelerator.rst accelerator.socket
      accelerator.signals =
        { accelerator.signals with
          coreRst := true, key := concat key, keyExpEn := true } := by
    simp [controlProc, resting.released, resting.inForce, words]
  cases edges with
  | zero =>
      obtain ⟨low, disabled⟩ : Cleared accelerator.signals accelerator.core :=
        resting.phase
      obtain ⟨later, stepped⟩ := edge_exists keyExpFirst resting.counted
        (fun stranded => by simp [disabled] at stranded)
      refine ⟨later, stepped, resting.edge stepped ?_⟩
      rw [edge_of_low resting.counted.stable low stepped,
        settled_of_running commanded rfl]
      exact {
        running := rfl
        key_eq := rfl
        count := rfl
        expanded := computed_zero
        disabled := by simp [disabled]
        encdata := rfl
        decdata := rfl
        round := rfl
        state := by simp [reported, evaluated, commanded, disabled] }
  | succ edges =>
      have expanding : Expanding key edges accelerator.signals
        accelerator.core := resting.phase
      obtain ⟨later, stepped⟩ := edge_exists keyExpFirst resting.counted
        (fun stranded => by simp [expanding.disabled] at stranded)
      refine ⟨later, stepped, resting.edge stepped ?_⟩
      obtain ⟨rkReady, i, rk, crypted, keyed, ciphered, same⟩ :=
        edge_of_running resting.counted.stable expanding.running stepped
      have agrees : Agrees accelerator.signals.key key accelerator.core.i := by
        rw [expanding.key_eq]
        exact agrees_concat key accelerator.core.i
      have expanded := expanding.expanded.keyed (fun _ => agrees) keyed
      obtain ⟨scheduled, ready, enabled, grown, advanced⟩ :=
        resting.counted.keyed expanding.running keyed
      have count := expanding.count
      have counted : i = min (edges + 1) 32 := by omega
      cases ciphered with
      | round enabled => simp [expanding.disabled] at enabled
      | encrypted enabled => simp [expanding.disabled] at enabled
      | decrypted enabled => simp [expanding.disabled] at enabled
      | idle =>
      rw [same, settled_of_running commanded rfl]
      exact {
        running := rfl
        key_eq := rfl
        count := counted
        expanded := expanded
        disabled := by simp [expanding.disabled]
        encdata := expanding.encdata
        decdata := expanding.decdata
        round := expanding.round
        state := by
          have finished : rkReady = decide (32 ≤ edges + 1) := by
            rw [Bool.eq_iff_iff, ready, decide_eq_true_eq]
            omega
          by_cases early : edges + 1 < 32
          · have late : ¬ 32 ≤ edges + 1 := by omega
            simp [reported, evaluated, commanded, expanding.disabled, finished, early, late]
          · have late : 32 ≤ edges + 1 := by omega
            simp [reported, evaluated, commanded, expanding.disabled, finished, early, late] }

/-! ## The cipher at work -/

/-- The phase in which a command for the cipher finds the core. -/
def Ready (mode : Bool) (key : Block Word) : Signals → Core → Prop :=
  Loaded key (!mode) false 0 (if mode then 2 else 4)

/-- After a number of rounds on a block. -/
structure Running (mode : Bool) (key block : Block Word) (rounds : ℕ)
    (signals : Signals) (core : Core) : Prop where
  running : signals.coreRst = true
  rkReady : signals.rkReady = true
  expanded : Expanded key 32 core.rk
  enabled : signals.encDecEn = true
  mode_eq : signals.mode = mode
  data_eq : signals.data = concat block
  encdata : signals.encdataReady = !mode
  decdata : signals.decdataReady = false
  round : core.j = rounds
  enciphered : Enciphered mode key block rounds core.x
  state : signals.dataState = if mode then 3 else 5

/-- The cipher, edge by edge after the command. -/
def cipherPhase (mode : Bool) (key block : Block Word) :
    ℕ → Signals → Core → Prop
  | 0 => Ready mode key
  | edges + 1 =>
      if edges < 32 then Running mode key block edges else Ended mode key block

theorem controlProc_mode {mode : Bool} {phase : Signals → Core → Prop}
    {accelerator : Accelerator} {block : Block Word}
    (resting : Resting (modeCommand mode) phase accelerator)
    (words : accelerator.socket.dataOut = concat block) :
    controlProc accelerator.rst accelerator.socket accelerator.signals =
      { accelerator.signals with
        data := concat block, mode := mode, encDecEn := true } := by
  cases mode <;>
    simp [controlProc, resting.released, resting.inForce, words, modeCommand]

theorem cipher_starts {mode : Bool} {key block : Block Word}
    {accelerator : Accelerator} (keyExpFirst : Bool)
    (resting : Resting (modeCommand mode) (Ready mode key) accelerator)
    (words : accelerator.socket.dataOut = concat block) :
    ∃ later, edge keyExpFirst accelerator = some later ∧
      later.socket = accelerator.socket ∧
      Resting (modeCommand mode) (Running mode key block 0) later := by
  have loaded : Ready mode key accelerator.signals accelerator.core :=
    resting.phase
  have commanded := controlProc_mode resting words
  obtain ⟨later, stepped⟩ := edge_exists keyExpFirst resting.counted
    (fun stranded => by simp [loaded.disabled] at stranded)
  refine ⟨later, stepped, resting.edge stepped ?_⟩
  obtain ⟨rkReady, i, rk, crypted, keyed, ciphered, same⟩ :=
    edge_of_running resting.counted.stable loaded.running stepped
  have idle : accelerator.signals.keyExpEn = false := by
    simp [resting.counted.enabled loaded.running, loaded.rkReady]
  cases keyed with
  | round enabled => simp [idle] at enabled
  | last enabled => simp [idle] at enabled
  | idle =>
  cases ciphered with
  | round enabled => simp [loaded.disabled] at enabled
  | encrypted enabled => simp [loaded.disabled] at enabled
  | decrypted enabled => simp [loaded.disabled] at enabled
  | idle =>
  rw [same, settled_of_running commanded loaded.running]
  exact {
    running := loaded.running
    rkReady := loaded.rkReady
    expanded := loaded.expanded
    enabled := by cases mode <;> simp [loaded.encdata, loaded.decdata]
    mode_eq := rfl
    data_eq := rfl
    encdata := loaded.encdata
    decdata := loaded.decdata
    round := loaded.round
    enciphered := computed_zero
    state := by
      cases mode <;> simp [reported, evaluated, commanded, loaded.rkReady,
        loaded.encdata, loaded.decdata] }

theorem cipher_round {mode : Bool} {key block : Block Word} {rounds : ℕ}
    {accelerator : Accelerator} (keyExpFirst : Bool) (below : rounds < 32)
    (resting : Resting (modeCommand mode) (Running mode key block rounds)
      accelerator)
    (words : accelerator.socket.dataOut = concat block) :
    ∃ later, edge keyExpFirst accelerator = some later ∧
      later.socket = accelerator.socket ∧
      Resting (modeCommand mode) (cipherPhase mode key block (rounds + 2))
        later := by
  have active : Running mode key block rounds accelerator.signals
    accelerator.core := resting.phase
  have commanded := controlProc_mode resting words
  obtain ⟨later, stepped⟩ := edge_exists keyExpFirst resting.counted
    (fun stranded => by
      have last := stranded.2
      rw [active.round] at last
      omega)
  refine ⟨later, stepped, resting.edge stepped ?_⟩
  obtain ⟨rkReady, i, rk, crypted, keyed, ciphered, same⟩ :=
    edge_of_running resting.counted.stable active.running stepped
  have idle : accelerator.signals.keyExpEn = false := by
    simp [resting.counted.enabled active.running, active.rkReady]
  cases keyed with
  | round enabled => simp [idle] at enabled
  | last enabled => simp [idle] at enabled
  | idle =>
  have agrees : Agrees accelerator.signals.data block accelerator.core.j := by
    rw [active.data_eq]
    exact agrees_concat block accelerator.core.j
  have scheduled : scheduled accelerator.signals.mode accelerator.core.rk
      accelerator.core.j = modeKey mode key accelerator.core.j := by
    rw [active.mode_eq, active.round]
    exact scheduled_eq active.expanded below (fun _ => below)
      (fun _ => Nat.le_refl 32)
  have before : Enciphered mode key block accelerator.core.j
      accelerator.core.x := by
    rw [active.round]
    exact active.enciphered
  have after := before.cryptRound agrees scheduled
  rw [active.round] at after
  rw [ite_self] at ciphered
  rw [same, settled_of_running commanded active.running]
  cases ciphered with
  | idle disabled => simp [active.enabled] at disabled
  | round enabled early =>
      rw [active.round] at early
      have more : rounds + 1 < 32 := by omega
      simp only [cipherPhase, if_pos more]
      exact {
        running := active.running
        rkReady := active.rkReady
        expanded := active.expanded
        enabled := by cases mode <;> simp [active.encdata, active.decdata]
        mode_eq := rfl
        data_eq := rfl
        encdata := active.encdata
        decdata := active.decdata
        round := by simp [active.round]
        enciphered := after
        state := by
          cases mode <;> simp [reported, evaluated, commanded, active.rkReady,
            active.encdata, active.decdata] }
  | encrypted enabled encrypts end_eq =>
      have forward : mode = true := active.mode_eq.symm.trans encrypts
      have last : rounds = 31 := active.round.symm.trans end_eq
      subst forward
      subst last
      have result := after.finished
      refine ⟨?_, by rw [← result]⟩
      exact {
        running := active.running
        rkReady := active.rkReady
        expanded := active.expanded
        disabled := by simp [active.rkReady]
        encdata := rfl
        decdata := active.decdata
        round := rfl
        state := by simp [reported, evaluated, commanded, active.rkReady] }
  | decrypted enabled decrypts end_eq =>
      have backward : mode = false := active.mode_eq.symm.trans decrypts
      have last : rounds = 31 := active.round.symm.trans end_eq
      subst backward
      subst last
      have result := after.finished
      refine ⟨?_, by rw [← result]⟩
      exact {
        running := active.running
        rkReady := active.rkReady
        expanded := active.expanded
        disabled := by simp [active.rkReady, active.encdata]
        encdata := active.encdata
        decdata := rfl
        round := rfl
        state := by
          simp [reported, evaluated, commanded, active.rkReady, active.encdata] }

theorem cipher_advances (mode : Bool) (key block : Block Word) :
    Advances (modeCommand mode) block (cipherPhase mode key block) := by
  intro edges accelerator keyExpFirst resting words
  cases edges with
  | zero => exact cipher_starts keyExpFirst resting words
  | succ rounds =>
      by_cases below : rounds < 32
      · rw [cipherPhase, if_pos below] at resting
        exact cipher_round keyExpFirst below resting words
      · have beyond : ¬ rounds + 1 < 32 := by omega
        rw [cipherPhase, if_neg below] at resting
        rw [cipherPhase, if_neg beyond]
        exact ended_leads mode key block accelerator keyExpFirst resting

/-! ## Waiting for the end -/

/-- The state register tells the end from the 33rd edge on. -/
def Reports (command state : Word) (phases : ℕ → Signals → Core → Prop) : Prop :=
  ∀ edges accelerator, Resting command (phases edges) accelerator →
    (accelerator.signals.dataState = state ↔ 33 ≤ edges)

theorem key_reports (key : Block Word) : Reports 1 2 (keyPhase key) := by
  intro edges accelerator resting
  cases edges with
  | zero =>
      have low : accelerator.signals.coreRst = false := resting.phase.1
      simp [resting.counted.stable.dataState_of_low low]
  | succ edges =>
      have expanding : Expanding key edges accelerator.signals
        accelerator.core := resting.phase
      rw [expanding.state]
      by_cases early : edges < 32
      · have late : ¬ 33 ≤ edges + 1 := by omega
        simp [early, late]
      · have late : 33 ≤ edges + 1 := by omega
        simp [early, late]

theorem cipher_reports (mode : Bool) (key block : Block Word) :
    Reports (modeCommand mode) (if mode then 4 else 6)
      (cipherPhase mode key block) := by
  intro edges accelerator resting
  cases edges with
  | zero =>
      have loaded : Ready mode key accelerator.signals accelerator.core :=
        resting.phase
      rw [loaded.state]
      cases mode <;> simp
  | succ rounds =>
      by_cases below : rounds < 32
      · have late : ¬ 33 ≤ rounds + 1 := by omega
        rw [cipherPhase, if_pos below] at resting
        rw [resting.phase.state]
        cases mode <;> simp [late]
      · have late : 33 ≤ rounds + 1 := by omega
        rw [cipherPhase, if_neg below] at resting
        rw [resting.phase.1.state]
        simp [late]

theorem elapse_advances {command : Word} {words : Block Word}
    {phases : ℕ → Signals → Core → Prop}
    (advances : Advances command words phases) (clock : List Bool) {edges : ℕ}
    {accelerator : Accelerator}
    (resting : Resting command (phases edges) accelerator)
    (loaded : accelerator.socket.dataOut = concat words) :
    ∃ later, elapse clock accelerator = some later ∧
      later.socket = accelerator.socket ∧
      Resting command (phases (edges + clock.length)) later := by
  induction clock generalizing edges accelerator with
  | nil => exact ⟨accelerator, rfl, rfl, resting⟩
  | cons keyExpFirst clock inductionHypothesis =>
      obtain ⟨next, stepped, socket, restingNext⟩ :=
        advances edges accelerator keyExpFirst resting loaded
      obtain ⟨later, elapsed, socketLater, restingLater⟩ :=
        inductionHypothesis restingNext (by rw [socket, loaded])
      refine ⟨later, ?_, socketLater.trans socket, ?_⟩
      · simp [elapse, stepped, elapsed]
      · rwa [List.length_cons, Nat.add_comm clock.length, ← Nat.add_assoc]

/-- A loop on the state register ends with the command carried out, and it does
end when 33 edges pass. -/
theorem poll_spec {command state : Word} {words : Block Word}
    {phases : ℕ → Signals → Core → Prop}
    (advances : Advances command words phases)
    (reports : Reports command state phases) (pauses : List (List Bool))
    {edges : ℕ} {accelerator : Accelerator}
    (resting : Resting command (phases edges) accelerator)
    (loaded : accelerator.socket.dataOut = concat words) :
    (∀ later, poll state pauses accelerator = some later →
      later.socket = accelerator.socket ∧
        ∃ count, 33 ≤ count ∧ Resting command (phases count) later) ∧
      (33 ≤ edges + pauses.flatten.length →
        (poll state pauses accelerator).isSome = true) := by
  induction pauses generalizing edges accelerator with
  | nil =>
      have told := reports edges accelerator resting
      by_cases late : 33 ≤ edges
      · have done := told.mpr late
        simp [poll, Accelerator.read, done]
        exact ⟨edges, late, resting⟩
      · have working : ¬ accelerator.signals.dataState = state :=
          fun done => late (told.mp done)
        simp [poll, Accelerator.read, working]
        omega
  | cons clock pauses inductionHypothesis =>
      have told := reports edges accelerator resting
      by_cases late : 33 ≤ edges
      · have done := told.mpr late
        simp [poll, Accelerator.read, done]
        exact ⟨edges, late, resting⟩
      · have working : ¬ accelerator.signals.dataState = state :=
          fun done => late (told.mp done)
        obtain ⟨next, elapsed, socket, restingNext⟩ :=
          elapse_advances advances clock resting loaded
        obtain ⟨right, total⟩ :=
          inductionHypothesis restingNext (by rw [socket, loaded])
        have unfolded : poll state (clock :: pauses) accelerator =
            poll state pauses next := by
          simp [poll, Accelerator.read, working, elapsed]
        rw [unfolded, ← socket]
        refine ⟨right, fun enough => total ?_⟩
        simp only [List.flatten_cons, List.length_append] at enough
        omega

theorem readWords_ended (schedule : Schedule) (read : ℕ) {mode : Bool}
    {key block : Block Word} {accelerator : Accelerator}
    (resting : Resting (modeCommand mode) (Ended mode key block) accelerator) :
    ∃ later, readWords schedule read accelerator =
        some (outcome mode key block, later) ∧
      later.socket = accelerator.socket ∧
      Resting (modeCommand mode) (Ended mode key block) later := by
  have quiet := ended_leads mode key block
  obtain ⟨first, elapsed, socket, resting⟩ :=
    elapse_resting quiet (schedule.reads read) resting
  obtain ⟨second, elapsedSecond, socketSecond, restingSecond⟩ :=
    elapse_resting quiet (schedule.reads (read + 1)) resting
  obtain ⟨third, elapsedThird, socketThird, restingThird⟩ :=
    elapse_resting quiet (schedule.reads (read + 2)) restingSecond
  obtain ⟨fourth, elapsedFourth, socketFourth, restingFourth⟩ :=
    elapse_resting quiet (schedule.reads (read + 3)) restingThird
  refine ⟨fourth, ?_, ?_, restingFourth⟩
  · simp [readWords, readReg, elapsed, elapsedSecond, elapsedThird,
      elapsedFourth, Accelerator.read, resting.phase.2, restingSecond.phase.2,
      restingThird.phase.2, restingFourth.phase.2, ranges_concat]
  · rw [socketFourth, socketThird, socketSecond, socket]

/-! ## The driver's run -/

/-- No cipher is at work and none is about to start: the command in force, if it
is one for the cipher, has been carried out. -/
structure Carried (command : Word) (signals : Signals) (_ : Core) : Prop where
  disabled : signals.encDecEn = false
  encrypted : command = 2 → signals.encdataReady = true
  decrypted : command = 3 →
    signals.encdataReady = true ∧ signals.decdataReady = true

/-- The states that the driver may find, such as the one after power-on and
those that an earlier run of it ends in. -/
structure Rested (accelerator : Accelerator) : Prop where
  idle : accelerator.socket.writing = false
  resting : Resting accelerator.socket.dataOptOut
    (Carried accelerator.socket.dataOptOut) accelerator

theorem carried_leads (command : Word) :
    Leads command (Carried command) (Carried command) := by
  intro accelerator keyExpFirst resting
  have carried := resting.phase
  have disabled := carried.disabled
  obtain ⟨later, stepped⟩ := edge_exists keyExpFirst resting.counted
    (fun stranded => by simp [disabled] at stranded)
  refine ⟨later, stepped, resting.edge stepped ?_⟩
  have released := resting.released
  have inForce := resting.inForce
  cases running : accelerator.signals.coreRst with
  | false =>
      obtain ⟨_, encdata, _⟩ := resting.counted.stable.reset running
      have second : command ≠ 2 := fun encryption => by
        simp [carried.encrypted encryption] at encdata
      have third : command ≠ 3 := fun decryption => by
        simp [carried.decrypted decryption] at encdata
      rw [edge_of_low resting.counted.stable running stepped]
      refine ⟨?_, fun encryption => absurd encryption second,
        fun decryption => absurd decryption third⟩
      simp only [Accelerator.settled, quiesce, evaluated, controlProc, released,
        inForce, if_neg second, if_neg third]
      split_ifs <;> simp_all
  | true =>
      obtain ⟨rkReady, i, rk, crypted, keyed, ciphered, same⟩ :=
        edge_of_running resting.counted.stable running stepped
      cases ciphered with
      | round enabled => simp [disabled] at enabled
      | encrypted enabled => simp [disabled] at enabled
      | decrypted enabled => simp [disabled] at enabled
      | idle =>
      by_cases reset : command = 0
      · subst reset
        subst same
        refine ⟨?_, by simp, by simp⟩
        simp [Accelerator.settled, quiesce, evaluated, controlProc, released,
          inForce, disabled]
      · have goesOn : (controlProc accelerator.rst accelerator.socket
            accelerator.signals).coreRst = true := by
          rw [controlProc_coreRst released running, inForce]
          exact reset
        rw [same, settled_of_running rfl goesOn]
        refine ⟨?_, carried.encrypted, carried.decrypted⟩
        have finished : accelerator.signals.encdataReady = true →
            rkReady = true := by
          intro encdata
          obtain ⟨_, ready, _, grown, _⟩ := resting.counted.keyed running keyed
          have last := resting.counted.encrypted encdata
          rw [ready]
          omega
        by_cases encryption : command = 2
        · have encdata := carried.encrypted encryption
          simp [controlProc, released, inForce, encryption, encdata,
            finished encdata]
        · by_cases decryption : command = 3
          · obtain ⟨encdata, decdata⟩ := carried.decrypted decryption
            simp [controlProc, released, inForce, decryption, encdata, decdata,
              finished encdata]
          · simp only [controlProc, released, inForce, if_neg reset,
              if_neg encryption, if_neg decryption]
            split_ifs <;> simp_all

/-- Between commands: the control register holds the command in force. -/
structure Between (command : Word) (phase : Signals → Core → Prop)
    (accelerator : Accelerator) : Prop where
  resting : Resting command phase accelerator
  idle : accelerator.socket.writing = false
  register : accelerator.socket.controlInReg = command

/-- Four words and a control word: the words are the data of the command. -/
theorem command_between (schedule : Schedule) (write : ℕ) (block : Block Word)
    {command : Word} (control : Word) {phase next : Signals → Core → Prop}
    {accelerator : Accelerator} (quiet : Leads command phase phase)
    (leads : Leads command phase next) (quietNext : Leads command next next)
    (between : Between command phase accelerator) :
    ∃ words later, writeWords schedule write block accelerator = some words ∧
      writeReg schedule (write + 4) 0x20 control words = some later ∧
      later.socket.dataOut = concat block ∧ Between control next later := by
  obtain ⟨words, wrote, idle, xIn, resting⟩ := writeWords_resting schedule write
    block quiet between.idle between.register between.resting
  have register : words.socket.setRegister 0x20 control =
      some { words.socket with controlInReg := control } := rfl
  obtain ⟨later, commanded, socket, restingLater⟩ :=
    writeReg_resting schedule (write + 4) quiet leads quietNext idle register rfl
      resting
  refine ⟨words, later, wrote, commanded, ?_, restingLater, ?_, ?_⟩
  · simp [socket, Socket.finish, xIn]
  · simp [socket, Socket.finish]
  · simp [socket, Socket.finish]

/-- The reset and the key. -/
def keyStage (schedule : Schedule) (key : Block Word)
    (accelerator : Accelerator) : Option Accelerator := do
  let accelerator ← writeReg schedule 0 0x20 0 accelerator
  let accelerator ← writeWords schedule 1 key accelerator
  let accelerator ← writeReg schedule 5 0x20 1 accelerator
  poll 2 (schedule.polls 0) accelerator

/-- A block through the cipher. -/
def cipherStage (schedule : Schedule) (mode : Bool) (write loop read : ℕ)
    (block : Block Word) (accelerator : Accelerator) :
    Option (Block Word × Accelerator) := do
  let accelerator ← writeWords schedule write block accelerator
  let accelerator ←
    writeReg schedule (write + 4) 0x20 (modeCommand mode) accelerator
  let accelerator ←
    poll (if mode then 4 else 6) (schedule.polls loop) accelerator
  readWords schedule read accelerator

theorem sm4Test_eq (schedule : Schedule) (key plaintext : Block Word)
    (accelerator : Accelerator) :
    sm4Test schedule key plaintext accelerator = (do
      let accelerator ← keyStage schedule key accelerator
      let (ciphertext, accelerator) ←
        cipherStage schedule true 6 1 0 plaintext accelerator
      let (plaintext, accelerator) ←
        cipherStage schedule false 11 2 4 ciphertext accelerator
      return (ciphertext, plaintext, accelerator)) := by
  simp [sm4Test, keyStage, cipherStage, modeCommand, Option.bind_assoc]

theorem keyStage_spec (schedule : Schedule) (key : Block Word)
    {accelerator : Accelerator} (rested : Rested accelerator) :
    (∀ later, keyStage schedule key accelerator = some later →
      Between 1 (Ready true key) later) ∧
      (33 ≤ (schedule.polls 0).flatten.length →
        (keyStage schedule key accelerator).isSome = true) := by
  have register : accelerator.socket.setRegister 0x20 0 =
      some { accelerator.socket with controlInReg := 0 } := rfl
  have quiet := carried_leads accelerator.socket.dataOptOut
  obtain ⟨first, reset, socket, resting⟩ := writeReg_resting schedule 0 quiet quiet
    quiet rested.idle register rfl rested.resting
  have disabled : Resting 0 Disabled first :=
    ⟨resting.counted, resting.released, resting.inForce, resting.phase.disabled⟩
  have between : Between 0 Disabled first := by
    refine ⟨disabled, ?_, ?_⟩ <;> rw [socket] <;> rfl
  obtain ⟨words, second, wrote, commanded, loaded, cleared⟩ :=
    command_between schedule 1 key 1 disabled_keeps disabled_leads cleared_leads
      between
  have resting : Resting 1 (keyPhase key 0) second := cleared.resting
  obtain ⟨right, total⟩ := poll_spec (key_advances key) (key_reports key)
    (schedule.polls 0) resting loaded
  have unfolded : keyStage schedule key accelerator =
      poll 2 (schedule.polls 0) second := by
    simp only [keyStage, reset, wrote, commanded, Option.bind_eq_bind,
      Option.bind_some]
  rw [unfolded]
  refine ⟨fun later polled => ?_, fun enough => total (by omega)⟩
  obtain ⟨kept, count, late, done⟩ := right later polled
  obtain ⟨edges, rfl⟩ : ∃ edges, count = edges + 1 := ⟨count - 1, by omega⟩
  have expanding : Expanding key edges later.signals later.core := done.phase
  have counted := expanding.count
  have last : later.core.i = 32 := by omega
  have ready : Ready true key later.signals later.core := {
    running := expanding.running
    rkReady := (done.counted.ready expanding.running).mpr last
    expanded := by
      rw [← last]
      exact expanding.expanded
    disabled := expanding.disabled
    encdata := expanding.encdata
    decdata := expanding.decdata
    round := expanding.round
    state := by
      have beyond : ¬ edges < 32 := by omega
      rw [expanding.state, if_neg beyond, if_pos rfl] }
  exact ⟨⟨done.counted, done.released, done.inForce, ready⟩,
    by rw [kept]; exact cleared.idle, by rw [kept]; exact cleared.register⟩

theorem cipherStage_spec (schedule : Schedule) {mode : Bool}
    (write loop read : ℕ) {key : Block Word} (block : Block Word)
    {command : Word} {phase : Signals → Core → Prop} {accelerator : Accelerator}
    (quiet : Leads command phase phase)
    (ready : ∀ signals core, phase signals core → Ready mode key signals core)
    (between : Between command phase accelerator) :
    (∀ result later,
      cipherStage schedule mode write loop read block accelerator =
        some (result, later) →
      result = outcome mode key block ∧
        Between (modeCommand mode) (Ended mode key block) later) ∧
      (33 ≤ (schedule.polls loop).flatten.length →
        (cipherStage schedule mode write loop read block
          accelerator).isSome = true) := by
  obtain ⟨words, second, wrote, commanded, loaded, started⟩ :=
    command_between schedule write block (modeCommand mode) quiet quiet quiet
      between
  have resting : Resting (modeCommand mode) (cipherPhase mode key block 0)
      second :=
    ⟨started.resting.counted, started.resting.released, started.resting.inForce,
      ready _ _ started.resting.phase⟩
  obtain ⟨right, total⟩ := poll_spec (cipher_advances mode key block)
    (cipher_reports mode key block) (schedule.polls loop) resting loaded
  cases polled : poll (if mode then 4 else 6) (schedule.polls loop) second with
  | none =>
      have failed : cipherStage schedule mode write loop read block
          accelerator = none := by
        simp only [cipherStage, wrote, commanded, polled, Option.bind_eq_bind,
          Option.bind_some, Option.bind_none]
      simp only [failed, reduceCtorEq, false_implies, implies_true, true_and]
      intro enough
      have ends := total (by omega)
      rw [polled] at ends
      exact ends
  | some third =>
      obtain ⟨kept, count, late, done⟩ := right third polled
      obtain ⟨edges, rfl⟩ : ∃ edges, count = edges + 1 := ⟨count - 1, by omega⟩
      have beyond : ¬ edges < 32 := by omega
      rw [cipherPhase, if_neg beyond] at done
      obtain ⟨fourth, readOut, socket, ended⟩ :=
        readWords_ended schedule read done
      have unfolded : cipherStage schedule mode write loop read block
          accelerator = some (outcome mode key block, fourth) := by
        simp only [cipherStage, wrote, commanded, polled, readOut,
          Option.bind_eq_bind, Option.bind_some]
      rw [unfolded]
      refine ⟨?_, fun _ => rfl⟩
      rintro result later same
      obtain ⟨rfl, rfl⟩ := Prod.mk.inj (Option.some.inj same)
      refine ⟨rfl, ended, ?_, ?_⟩
      · rw [socket, kept]
        exact started.idle
      · rw [socket, kept]
        exact started.register

/-- However many edges pass between its accesses, the driver ends with the
software's ciphertext and with the block it started from, and it does end when
every loop waits for 33 edges. -/
theorem sm4Test_spec (schedule : Schedule) (key plaintext : Block Word)
    {accelerator : Accelerator} (rested : Rested accelerator) :
    (∀ ciphertext decrypted later,
      sm4Test schedule key plaintext accelerator =
        some (ciphertext, decrypted, later) →
      ciphertext = Software.encryption key plaintext ∧
        decrypted = Software.decryption key ciphertext ∧
        decrypted = plaintext ∧ Rested later) ∧
      ((∀ loop < 3, 33 ≤ (schedule.polls loop).flatten.length) →
        (sm4Test schedule key plaintext accelerator).isSome = true) := by
  obtain ⟨keyRight, keyTotal⟩ := keyStage_spec schedule key rested
  rw [sm4Test_eq]
  cases expanding : keyStage schedule key accelerator with
  | none =>
      refine ⟨by simp, fun enough => ?_⟩
      have ends := keyTotal (enough 0 (by omega))
      rw [expanding] at ends
      cases ends
  | some first =>
  have forward : ∀ signals core, Ready true key signals core →
      Ready true key signals core := fun _ _ ready => ready
  obtain ⟨encryptRight, encryptTotal⟩ := cipherStage_spec schedule 6 1 0 plaintext
    (loaded_leads .key) forward (keyRight first expanding)
  cases encrypting : cipherStage schedule true 6 1 0 plaintext first with
  | none =>
      refine ⟨by simp [encrypting], fun enough => ?_⟩
      have ends := encryptTotal (enough 1 (by omega))
      rw [encrypting] at ends
      cases ends
  | some result =>
  obtain ⟨ciphertext, second⟩ := result
  obtain ⟨cipher_eq, encrypted⟩ := encryptRight ciphertext second encrypting
  have backward : ∀ signals core, Ended true key plaintext signals core →
      Ready false key signals core := fun _ _ ended => ended.1
  obtain ⟨decryptRight, decryptTotal⟩ := cipherStage_spec schedule 11 2 4 ciphertext
    (ended_leads true key plaintext) backward encrypted
  cases decrypting : cipherStage schedule false 11 2 4 ciphertext second with
  | none =>
      refine ⟨by simp [encrypting, decrypting], fun enough => ?_⟩
      have ends := decryptTotal (enough 2 (by omega))
      rw [decrypting] at ends
      cases ends
  | some result =>
  obtain ⟨decrypted, third⟩ := result
  obtain ⟨plain_eq, ended⟩ := decryptRight decrypted third decrypting
  refine ⟨?_, fun _ => by simp [encrypting, decrypting]⟩
  intro ciphertext' decrypted' later same
  simp only [Option.bind_eq_bind, Option.bind_some, encrypting, decrypting,
    Option.pure_def, Option.some.injEq, Prod.mk.injEq] at same
  obtain ⟨rfl, rfl, rfl⟩ := same
  have deciphered : decrypt key ciphertext = plaintext := by
    rw [cipher_eq]
    exact decrypt_encrypt key plaintext
  have carried : Carried 3 third.signals third.core :=
    ⟨ended.resting.phase.1.disabled, by simp,
      fun _ => ⟨ended.resting.phase.1.encdata, ended.resting.phase.1.decdata⟩⟩
  have inForce : third.socket.dataOptOut = 3 := ended.resting.inForce
  have rests : Rested third := by
    refine ⟨ended.idle, ended.resting.counted, ended.resting.released, rfl, ?_⟩
    rw [inForce]
    exact carried
  refine ⟨?_, ?_, plain_eq.trans deciphered, rests⟩
  · rw [Software.encryption_eq]
    exact cipher_eq
  · rw [Software.decryption_eq]
    exact plain_eq

/-- After power-on. -/
def Accelerator.powered : Accelerator :=
  { Accelerator.initial with rst := true }

theorem rested_powered : Rested .powered where
  idle := rfl
  resting := {
    counted := counted_step counted_initial (show Steps .initial .release _ from rfl)
    released := rfl
    inForce := rfl
    phase := ⟨rfl, by simp [Accelerator.powered, Accelerator.initial],
      by simp [Accelerator.powered, Accelerator.initial]⟩ }

/-- One edge in every write and between two reads of the state register. -/
def everyEdge : Schedule where
  before := fun _ => []
  during := fun _ => [true]
  polls := fun _ => List.replicate 33 [true]
  reads := fun _ => []
  waits := fun _ => List.cons_ne_nil true []

theorem sm4Test_powered :
    (sm4Test everyEdge ⟨0x01234567, 0x89abcdef, 0xfedcba98, 0x76543210⟩
      ⟨0x01234567, 0x89abcdef, 0xfedcba98, 0x76543210⟩
      .powered).isSome = true :=
  (sm4Test_spec everyEdge _ _ rested_powered).2 fun _ _ => by simp [everyEdge]

end Sm4

end RiscvVp
