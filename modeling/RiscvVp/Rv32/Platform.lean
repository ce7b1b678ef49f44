import Mathlib
import RiscvVp.Rv32.BusLock
import RiscvVp.Rv32.Run

/-!
# A platform of memories

The simplest surroundings: one hart, a bus with memories on it, nothing else
that acts.  A transaction is decoded by the address where it starts; a memory
that does not hold all of it dies of an assertion, and an address that no
memory claims is answered with an error.
-/

namespace RiscvVp

namespace Rv32

open Interaction

/-- Memory is little-endian. -/
def loadLittleEndian (contents : BitVec 64 → BitVec 8) (addr : BitVec 64) :
    Nat → Nat
  | 0 => 0
  | bytes + 1 =>
      (contents addr).toNat +
        2 ^ 8 * loadLittleEndian contents (addr + 1) bytes

def storeLittleEndian (contents : BitVec 64 → BitVec 8) (addr : BitVec 64)
    (bytes value : Nat) : BitVec 64 → BitVec 8 :=
  fun place =>
    let offset := (place - addr).toNat
    if offset < bytes then BitVec.ofNat 8 (value / 2 ^ (8 * offset))
    else contents place

structure Platform where
  memories : List DmiRange
  contents : BitVec 64 → BitVec 8
  busLock : BusLock := {}
  mtime : BitVec 64 := 0

namespace Platform

def load (platform : Platform) (bytes : Nat) (addr : BitVec 64) :
    BitVec (8 * bytes) :=
  BitVec.ofNat (8 * bytes) (loadLittleEndian platform.contents addr bytes)

def store (platform : Platform) (bytes : Nat) (addr : BitVec 64)
    (data : BitVec (8 * bytes)) : Platform :=
  { platform with
    contents := storeLittleEndian platform.contents addr bytes data.toNat }

/-- Decode an address and make the transaction. -/
def transport {α : Type} (platform : Platform) (bytes : Nat)
    (addr : BitVec 64) (value : α) : BusReply α :=
  match platform.memories.find? (·.contains addr) with
  | none => .error []
  | some memory =>
      if memory.fits bytes addr then .ok value [] else .fatal

/-- Answer a call. -/
def handle : (request : Call) → Platform → Reply request × Platform
  | .read bytes addr, platform =>
      (platform.transport bytes addr (platform.load bytes addr), platform)
  | .write _ bytes addr data, platform =>
      match platform.transport bytes addr () with
      | .ok _ interrupts =>
          (.ok () interrupts, platform.store bytes addr data)
      | .error interrupts => (.error interrupts, platform)
      | .fatal => (.fatal, platform)
  | .dmiLoad _ bytes addr, platform => (platform.load bytes addr, platform)
  | .dmiStore _ _ bytes addr data, platform =>
      ((), platform.store bytes addr data)
  | .lock hartId, platform =>
      ([], { platform with busLock := ⟨true, hartId⟩ })
  | .unlock hartId, platform =>
      ((), { platform with busLock := platform.busLock.unlock hartId })
  | .isLocked hartId, platform =>
      (platform.busLock.isLocked hartId, platform)
  | .waitForAccessRights _, platform => ([], platform)
  | .updateAndGetMtime, platform => (platform.mtime, platform)
  | .executeSyscall _ _ _ _ _, platform => (.returns 0 false, platform)
  | .waitWfi, platform => ([], platform)
  | .needSync _, platform => (false, platform)
  | .sync, platform => ([], platform)
  | .observe _, platform => ((), platform)

/-- The platform as surroundings. -/
def surroundings : Surroundings Reply Platform := .of handle

/-- One memory at address 0 that holds the words and zeros after them. -/
def ofWords (words : List (BitVec 32)) : Platform where
  memories := [⟨0, 0x1000⟩]
  contents addr :=
    (words.getD (addr.toNat / 4) 0).extractLsb' (8 * (addr.toNat % 4)) 8

/-- A plain build with an MMU and no direct memory access. -/
def config : Config where
  pipelineTiming := false
  softfloat := default
  sys := false
  mmu := true
  dmiRanges := []
  instrMemoryProxy := none

/-! ## Runs on a platform -/

/-- The instruction that the step fetches is admitted, if it fetches one. -/
def issuesAdmitted (admits : Hart → Bool) (cfg : Config) (hart : Hart)
    (platform : Platform) : Bool :=
  match ((issue cfg hart.starting).run handle platform).1 with
  | .done _ decoded => admits decoded
  | _ => true

/-- The state after some steps, if none of them ends the simulator and all of
their instructions are admitted. -/
def steps (admits : Hart → Bool) (cfg : Config) :
    Nat → Hart → Platform → Option (Hart × Platform)
  | 0, hart, platform => some (hart, platform)
  | count + 1, hart, platform =>
      match (runStep cfg hart).run handle platform with
      | (.done _ after, later) =>
          if issuesAdmitted admits cfg hart platform then
            steps admits cfg count after later
          else none
      | _ => none

theorem run_of_steps {admits : Hart → Bool} {cfg : Config} {count : Nat}
    {hart last : Hart} {platform later : Platform}
    (taken : steps admits cfg count hart platform = some (last, later))
    (run : Run cfg surroundings (fun decoded => admits decoded = true)
      platform hart) :
    Run cfg surroundings (fun decoded => admits decoded = true) later last := by
  induction count generalizing hart platform with
  | zero =>
      cases taken
      exact run
  | succ count inductionHypothesis =>
      unfold steps at taken
      split at taken
      next event after between ran =>
        split at taken
        next checked =>
          refine inductionHypothesis taken <|
            .step run ?_ ((Program.reachesIn_of _ _ _ _ _).2 ran)
          rintro decoded ⟨_, _, reached⟩
          rw [surroundings, Program.reachesIn_of] at reached
          simpa [issuesAdmitted, reached] using checked
        next => cases taken
      next => cases taken

/-- The state some steps after reset, in a program that starts at address
0. -/
def execution (admits : Hart → Bool) (words : List (BitVec 32))
    (count : Nat) : Option (Hart × Platform) :=
  steps admits config count (.reset 0 false 0 0x1000) (ofWords words)

theorem run_of_execution {admits : Hart → Bool} {words : List (BitVec 32)}
    {count : Nat} {hart : Hart} {platform : Platform}
    (executed : execution admits words count = some (hart, platform)) :
    Run config surroundings (fun decoded => admits decoded = true) platform
      hart :=
  run_of_steps executed <|
    .boot _ <| .reset 0 false 0 0x1000 false false fun _ => false

/-- The step after some steps of a program and the interrupts that arrive
then, as the check sees it. -/
def nextStep (words : List (BitVec 32)) (count : Nat)
    (interrupts : List InterruptEvent)
    (check : Hart → Outcome Hart SimulationTrap Fatal StepEvent → Bool) :
    Bool :=
  match execution (fun _ => true) words count with
  | some (hart, platform) =>
      let hart := interrupts.foldl Hart.interrupt hart
      check hart ((runStep config hart).run handle platform).1
  | none => false

/-- What is checked of a step is the case in a reachable state. -/
theorem exists_of_nextStep (words : List (BitVec 32)) (count : Nat)
    (interrupts : List InterruptEvent)
    (check : Hart → Outcome Hart SimulationTrap Fatal StepEvent → Bool)
    (checked : nextStep words count interrupts check = true) :
    ∃ platform hart later outcome,
      Reachable config surroundings platform hart ∧
      (runStep config hart).ReachesIn surroundings platform later outcome ∧
      check hart outcome = true := by
  unfold nextStep at checked
  split at checked
  next hart platform executed =>
    have arrives (hart : Hart)
        (run : Reachable config surroundings platform hart) :
        Reachable config surroundings platform
          (interrupts.foldl Hart.interrupt hart) := by
      clear checked
      induction interrupts generalizing hart with
      | nil => exact run
      | cons event rest inductionHypothesis =>
          exact inductionHypothesis _ (.interrupted event run)
    exact ⟨platform, _, _, _,
      arrives hart ((run_of_execution executed).mono fun _ _ => trivial),
      (Program.reachesIn_of _ _ _ _ _).2 rfl, checked⟩
  next => cases checked

end Platform

end Rv32

end RiscvVp
