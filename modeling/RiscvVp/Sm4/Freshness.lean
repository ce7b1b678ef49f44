import Mathlib
import RiscvVp.Sm4.CounterSafety

/-!
# Results and the commands they answer

Software writes a command and reads the state that tells of its completion.  The
history of the writes says which command came last and which words came with
it.  The results answer that command in every run in which a command for the
key finds the core in its reset and a command for the cipher finds no earlier
result of its kind, and in which the words stay in place while the rounds read
them.  The accelerator itself sees to none of this: its flags fall in a reset
only.
-/

namespace RiscvVp

namespace Sm4

open Feistel Trace

inductive Command : Type
  | key
  | encrypt
  | decrypt
  deriving DecidableEq, Repr

/-- `MOD_IN_KEY`, `MOD_IN_ENC` and `MOD_IN_DEC` -/
def Command.code : Command → Word
  | key => 1
  | encrypt => 2
  | decrypt => 3

/-- What software has asked for. -/
structure History : Type where
  /-- The last command, unless a reset came after it. -/
  asked : Option Command
  /-- The words that were written before the last command for a key. -/
  key : Block Word
  /-- The words that were written before the last command for the cipher. -/
  data : Block Word
  /-- The write in progress is one of a control word. -/
  commanding : Bool

def History.empty : History :=
  ⟨none, ⟨0, 0, 0, 0⟩, ⟨0, 0, 0, 0⟩, false⟩

/-- A control word has been written. -/
def History.ask (history : History) (control : Word) (words : Block Word) :
    History :=
  if control = 0 then { history with asked := none }
  else if control = 1 then { history with asked := some .key, key := words }
  else if control = 2 then { history with asked := some .encrypt, data := words }
  else if control = 3 then { history with asked := some .decrypt, data := words }
  else history

def History.next (history : History) (socket : Socket) : Event → History
  | .begin addr _ =>
      if socket.writing then history
      else { history with commanding := addr == 0x20 }
  | .finish =>
      if socket.writing && history.commanding then
        history.ask socket.controlInReg socket.xInReg
      else history
  | _ => history

/-- The accelerator with the history of its software. -/
structure Used : Type where
  accelerator : Accelerator
  history : History

def Used.initial : Used :=
  ⟨.initial, .empty⟩

def Follows (used : Used) (event : Event) (later : Used) : Prop :=
  step used.accelerator event = some later.accelerator ∧
    later.history = used.history.next used.accelerator.socket event

/-- The result registers, read one by one. -/
def Accelerator.readResult (accelerator : Accelerator) : Option (Block Word) := do
  return ⟨← accelerator.read 0x10, ← accelerator.read 0x14,
    ← accelerator.read 0x18, ← accelerator.read 0x1c⟩

/-- If the state register tells that the last command is complete, its outcome
is there. -/
def Fresh (used : Used) : Prop :=
  match used.history.asked with
  | none => True
  | some .key => used.accelerator.read 0x24 = some 2 →
      ∀ round < 32, used.accelerator.core.rk (round + 4) =
        roundKey used.history.key round
  | some .encrypt => used.accelerator.read 0x24 = some 4 →
      used.accelerator.readResult =
        some (encrypt used.history.key used.history.data)
  | some .decrypt => used.accelerator.read 0x24 = some 6 →
      used.accelerator.readResult =
        some (decrypt used.history.key used.history.data)

/-! ## When commands are timely -/

/-- A control word that comes while the core is running.  A key has to be the
one in use.  An encryption has to be the one asked for already, or to find the
cipher at rest and either no earlier result or its own result.  A decryption
that finds an encryption ended has to be the one asked for already, or to find
the cipher at rest before round 0 or its own result. -/
def TimelyCommand (used : Used) (control : Word) (words : Block Word) : Prop :=
  let signals := used.accelerator.signals
  let history := used.history
  (control = 1 → words = history.key) ∧
    (control = 2 →
      history.asked = some .encrypt ∧ words = history.data ∨
        signals.encDecEn = false ∧ (signals.encdataReady = true →
          signals.dataOut = concat (encrypt history.key words))) ∧
    (control = 3 → signals.encdataReady = true →
      history.asked = some .decrypt ∧ words = history.data ∨
        signals.decdataReady = false ∧ signals.encDecEn = false ∧
          used.accelerator.core.j = 0 ∨
        signals.decdataReady = true ∧
          signals.dataOut = concat (decrypt history.key words))

/-- The words that a round reads from the signals are those of the command. -/
def TimelyRounds (used : Used) : Prop :=
  let signals := used.accelerator.signals
  let history := used.history
  (signals.keyExpEn = true →
      Agrees signals.key history.key used.accelerator.core.i) ∧
    (signals.encDecEn = true →
      history.asked = some .encrypt ∨
        history.asked = some .decrypt ∧ signals.encdataReady = true →
      Agrees signals.data history.data used.accelerator.core.j)

def Timely (used : Used) : Event → Prop
  | .finish =>
      used.accelerator.socket.writing = true →
      used.history.commanding = true →
      used.accelerator.signals.coreRst = true →
        TimelyCommand used used.accelerator.socket.controlInReg
          used.accelerator.socket.xInReg
  | .edge _ => used.accelerator.signals.coreRst = true → TimelyRounds used
  | _ => True

/-! ## The invariant -/

/-- The cipher on the way to the encryption asked for. -/
structure Encrypting (key data : Block Word) (signals : Signals) (core : Core) :
    Prop where
  ended : signals.encdataReady = true →
    signals.encDecEn = false ∧ signals.dataOut = concat (encrypt key data)
  working : signals.encdataReady = false → signals.encDecEn = true →
    signals.mode = true ∧ core.j < core.i ∧ Enciphered true key data core.j core.x

/-- The cipher on the way to the decryption asked for, once an encryption has
ended. -/
structure Decrypting (key data : Block Word) (signals : Signals) (core : Core) :
    Prop where
  ended : signals.decdataReady = true →
    signals.dataOut = concat (decrypt key data)
  working : signals.decdataReady = false → signals.encDecEn = true →
    signals.mode = false ∧ Enciphered false key data core.j core.x
  waiting : signals.decdataReady = false → signals.encDecEn = false → core.j = 0

/-- What the reported state says about the flags. -/
structure Reported (signals : Signals) : Prop where
  expanded : signals.dataState = 2 → signals.rkReady = true
  encrypted : signals.dataState = 4 → signals.encdataReady = true
  decrypted : signals.dataState = 6 →
    signals.encdataReady = true ∧ signals.decdataReady = true

/-- What holds of the accelerator whatever software asks for. -/
structure Flagged (accelerator : Accelerator) : Prop where
  counted : Counted accelerator
  ended : accelerator.signals.decdataReady = true → accelerator.core.j = 32
  unstarted : accelerator.signals.encDecEn = false →
    accelerator.signals.encdataReady = false → accelerator.core.j = 0
  reported : Reported accelerator.signals

structure Tracked (used : Used) : Prop where
  flagged : Flagged used.accelerator
  register : (used.accelerator.socket.writing && used.history.commanding) = false →
    used.accelerator.socket.controlInReg = used.accelerator.socket.dataOptOut
  inForce : ∀ command, used.history.asked = some command →
    used.accelerator.socket.dataOptOut = command.code ∨
      4 ≤ used.accelerator.socket.dataOptOut
  expanded : used.accelerator.signals.coreRst = true →
    Expanded used.history.key used.accelerator.core.i used.accelerator.core.rk
  encrypting : used.history.asked = some .encrypt →
    used.accelerator.signals.coreRst = true →
      Encrypting used.history.key used.history.data used.accelerator.signals
        used.accelerator.core
  decrypting : used.history.asked = some .decrypt →
    used.accelerator.signals.encdataReady = true →
      Decrypting used.history.key used.history.data used.accelerator.signals
        used.accelerator.core

theorem flagged_initial : Flagged .initial where
  counted := counted_initial
  ended := nofun
  unstarted := fun _ _ => rfl
  reported := ⟨by decide, by decide, by decide⟩

theorem tracked_initial : Tracked .initial where
  flagged := flagged_initial
  register := fun _ => rfl
  inForce := nofun
  expanded := nofun
  encrypting := nofun
  decrypting := nofun

theorem readResult_of_dataOut {accelerator : Accelerator} {block : Block Word}
    (output : accelerator.signals.dataOut = concat block) :
    accelerator.readResult = some block := by
  simp [Accelerator.readResult, Accelerator.read, output, ranges_concat]

theorem Tracked.fresh {used : Used} (tracked : Tracked used) : Fresh used := by
  obtain ⟨accelerator, history⟩ := used
  have running : ∀ state : Word, state ≠ 0 →
      accelerator.signals.dataState = state →
      accelerator.signals.coreRst = true := by
    intro state positive told
    cases low : accelerator.signals.coreRst with
    | true => rfl
    | false =>
        have zero := tracked.flagged.counted.stable.dataState_of_low low
        exact absurd (told.symm.trans zero) positive
  rw [Fresh]
  cases asked : history.asked with
  | none => trivial
  | some command =>
      cases command with
      | key =>
          intro complete round below
          have told : accelerator.signals.dataState = 2 := Option.some.inj complete
          have runs := running 2 (by decide) told
          have last : accelerator.core.i = 32 :=
            (tracked.flagged.counted.ready runs).mp
              (tracked.flagged.reported.expanded told)
          exact (tracked.expanded runs).roundKey (by
            change round < accelerator.core.i
            omega)
      | encrypt =>
          intro complete
          have told : accelerator.signals.dataState = 4 := Option.some.inj complete
          have runs := running 4 (by decide) told
          have encrypting := tracked.encrypting asked runs
          exact readResult_of_dataOut
            (encrypting.ended (tracked.flagged.reported.encrypted told)).2
      | decrypt =>
          intro complete
          have told : accelerator.signals.dataState = 6 := Option.some.inj complete
          obtain ⟨encdata, decdata⟩ :=
            tracked.flagged.reported.decrypted told
          have decrypting := tracked.decrypting asked encdata
          exact readResult_of_dataOut (decrypting.ended decdata)

/-! ## Edges -/

/-- `state_proc` reports an end only when the flags tell of it. -/
theorem reported_settled {accelerator : Accelerator} {rkReady : Bool} {i : ℕ}
    {rk : ℕ → Word} {crypted : Crypted}
    (goesOn : (controlProc accelerator.rst accelerator.socket
      accelerator.signals).coreRst = true)
    (before : Reported accelerator.signals)
    (keys : accelerator.signals.rkReady = true → rkReady = true)
    (encdata : accelerator.signals.encdataReady = true →
      crypted.encdataReady = true)
    (decdata : accelerator.signals.decdataReady = true →
      crypted.decdataReady = true) :
    Reported (accelerator.settled rkReady i rk crypted).signals := by
  have held : (evaluated accelerator rkReady crypted).dataState =
      accelerator.signals.dataState :=
    (controlProc_flags accelerator.rst accelerator.socket
      accelerator.signals).2.2.2.2
  have same : (evaluated accelerator rkReady crypted).rkReady = rkReady ∧
      (evaluated accelerator rkReady crypted).encdataReady =
        crypted.encdataReady ∧
      (evaluated accelerator rkReady crypted).decdataReady =
        crypted.decdataReady := ⟨rfl, rfl, rfl⟩
  obtain ⟨expanded, encrypted, decrypted⟩ := before
  rw [settled_of_running rfl goesOn]
  refine ⟨?_, ?_, ?_⟩ <;> simp only [reported, held, same] <;> split_ifs <;>
    simp_all

/-- The order of the processes does not matter for the round keys that are
there already. -/
theorem expanded_either {key : Block Word} {keyExpFirst : Bool} {i rounds : ℕ}
    {rk before : ℕ → Word} (grown : rounds ≤ i) (later : Expanded key i rk)
    (earlier : Expanded key rounds before) :
    Expanded key rounds (if keyExpFirst then rk else before) := by
  cases keyExpFirst with
  | true => exact fun index below => later index (by omega)
  | false => exact earlier

/-- Under its own command, or an unknown one, a cipher in the right mode keeps
it. -/
theorem controlProc_cipher {rst : Bool} {socket : Socket} (now : Signals)
    (released : rst = true) {mode : Bool}
    (inForce : socket.dataOptOut = (if mode then 2 else 3) ∨
      4 ≤ socket.dataOptOut) :
    (controlProc rst socket now).coreRst = now.coreRst ∧
      ((controlProc rst socket now).mode = mode ∧
          (controlProc rst socket now).encDecEn = true ∨
        (controlProc rst socket now).mode = now.mode ∧
          (controlProc rst socket now).encDecEn = now.encDecEn) := by
  rcases inForce with own | unknown
  · cases mode <;> simp [controlProc, released, own]
  · have apart : ∀ word : Word, word < 4 → socket.dataOptOut ≠ word := by
      rintro word below rfl
      exact absurd below (BitVec.not_lt.mpr unknown)
    have first := apart 0 (by decide)
    have second := apart 1 (by decide)
    have third := apart 2 (by decide)
    have fourth := apart 3 (by decide)
    simp only [controlProc, released, Bool.not_true, Bool.false_eq_true, if_false,
      if_neg first, if_neg second, if_neg third, if_neg fourth]
    simp

section Edge

variable {accelerator : Accelerator} {key data : Block Word} {rkReady : Bool}
  {i : ℕ} {rk keys : ℕ → Word} {crypted : Crypted}

/-- An edge while an encryption is asked for. -/
theorem Encrypting.edge (counted : Counted accelerator)
    (released : accelerator.rst = true)
    (running : accelerator.signals.coreRst = true)
    (unstarted : accelerator.signals.encDecEn = false →
      accelerator.signals.encdataReady = false → accelerator.core.j = 0)
    (encrypting : Encrypting key data accelerator.signals accelerator.core)
    (agrees : accelerator.signals.encDecEn = true →
      Agrees accelerator.signals.data data accelerator.core.j)
    (expanded : Expanded key accelerator.core.i keys)
    (keyed : Keyed accelerator.signals accelerator.core rkReady i rk)
    (ciphered : Ciphered accelerator.signals keys accelerator.core crypted)
    (inForce : accelerator.socket.dataOptOut = 2 ∨
      4 ≤ accelerator.socket.dataOptOut) :
    Encrypting key data (accelerator.settled rkReady i rk crypted).signals
      (accelerator.settled rkReady i rk crypted).core := by
  obtain ⟨_, ready, _, grown, advanced⟩ := counted.keyed running keyed
  have behind := counted.behind
  have own : accelerator.socket.dataOptOut = (if true then 2 else 3) ∨
      4 ≤ accelerator.socket.dataOptOut := inForce
  obtain ⟨goesOn, commanded⟩ :=
    controlProc_cipher accelerator.signals released own
  rw [settled_of_running rfl (goesOn.trans running)]
  cases encdata : accelerator.signals.encdataReady with
  | true =>
      obtain ⟨disabled, output⟩ := encrypting.ended encdata
      have last := counted.encrypted encdata
      have finished : rkReady = true := ready.mpr (by omega)
      cases ciphered with
      | round enabled => simp [disabled] at enabled
      | encrypted enabled => simp [disabled] at enabled
      | decrypted enabled => simp [disabled] at enabled
      | idle =>
          refine ⟨fun _ => ⟨?_, output⟩, fun unended => ?_⟩
          · rcases commanded with ⟨mode, enabled⟩ | ⟨mode, enabled⟩
            · simp [mode, finished, encdata]
            · simp [enabled, disabled]
          · simp [encdata] at unended
  | false =>
      cases ciphered with
      | idle disabled =>
          have start := unstarted disabled encdata
          refine ⟨fun ended => by simp [encdata] at ended, fun _ enabled => ?_⟩
          rcases commanded with ⟨mode, enabled'⟩ | ⟨mode, enabled'⟩
          · refine ⟨mode, ?_, ?_⟩
            · simp only
              omega
            · rw [start]
              exact computed_zero
          · simp [enabled', disabled] at enabled
      | round enabled early =>
          obtain ⟨mode, ahead, enciphered⟩ := encrypting.working encdata enabled
          have kept : (controlProc accelerator.rst accelerator.socket
              accelerator.signals).mode = true := by
            rcases commanded with ⟨forward, _⟩ | ⟨same, _⟩
            · exact forward
            · exact same.trans mode
          have keyOf : scheduled accelerator.signals.mode keys
              accelerator.core.j = modeKey true key accelerator.core.j := by
            rw [mode]
            exact scheduled_eq expanded (by omega) (fun _ => ahead) nofun
          refine ⟨fun ended => by simp [encdata] at ended,
            fun _ _ => ⟨kept, ?_, ?_⟩⟩
          · change accelerator.core.j + 1 < i
            omega
          · exact enciphered.cryptRound (agrees enabled) keyOf
      | encrypted enabled mode end_eq =>
          obtain ⟨_, ahead, enciphered⟩ := encrypting.working encdata enabled
          have keyOf : scheduled accelerator.signals.mode keys
              accelerator.core.j = modeKey true key accelerator.core.j := by
            rw [mode]
            exact scheduled_eq expanded (by omega) (fun _ => ahead) nofun
          have finished : rkReady = true := ready.mpr (by omega)
          have after := enciphered.cryptRound (agrees enabled) keyOf
          rw [end_eq] at after
          have output := after.finished
          have kept : (controlProc accelerator.rst accelerator.socket
              accelerator.signals).mode = true := by
            rcases commanded with ⟨forward, _⟩ | ⟨same, _⟩
            · exact forward
            · exact same.trans mode
          refine ⟨fun _ => ⟨by simp [finished, kept], ?_⟩, nofun⟩
          exact congrArg concat output
      | decrypted enabled backward end_eq =>
          have forward := (encrypting.working encdata enabled).1
          simp [forward] at backward

/-- An edge while a decryption is asked for and an encryption has ended, now or
earlier. -/
theorem Decrypting.edge (counted : Counted accelerator)
    (released : accelerator.rst = true)
    (running : accelerator.signals.coreRst = true)
    (ended : accelerator.signals.decdataReady = true → accelerator.core.j = 32)
    (decrypting : accelerator.signals.encdataReady = true →
      Decrypting key data accelerator.signals accelerator.core)
    (agrees : accelerator.signals.encDecEn = true →
      accelerator.signals.encdataReady = true →
      Agrees accelerator.signals.data data accelerator.core.j)
    (expanded : Expanded key accelerator.core.i keys)
    (keyed : Keyed accelerator.signals accelerator.core rkReady i rk)
    (ciphered : Ciphered accelerator.signals keys accelerator.core crypted)
    (encdataLater : crypted.encdataReady = true)
    (inForce : accelerator.socket.dataOptOut = 3 ∨
      4 ≤ accelerator.socket.dataOptOut) :
    Decrypting key data (accelerator.settled rkReady i rk crypted).signals
      (accelerator.settled rkReady i rk crypted).core := by
  obtain ⟨_, ready, _, grown, advanced⟩ := counted.keyed running keyed
  have behind := counted.behind
  have own : accelerator.socket.dataOptOut = (if false then 2 else 3) ∨
      4 ≤ accelerator.socket.dataOptOut := inForce
  obtain ⟨goesOn, commanded⟩ :=
    controlProc_cipher accelerator.signals released own
  rw [settled_of_running rfl (goesOn.trans running)]
  cases encdata : accelerator.signals.encdataReady with
  | false =>
      cases ciphered with
      | idle disabled => simp [encdata] at encdataLater
      | round enabled early => simp [encdata] at encdataLater
      | decrypted enabled mode end_eq => simp [encdata] at encdataLater
      | encrypted enabled mode end_eq =>
          have finished : rkReady = true := ready.mpr (by omega)
          refine ⟨fun decdata => ?_, fun decdata enabled => ⟨?_, computed_zero⟩,
            fun _ _ => rfl⟩
          · have last := ended decdata
            omega
          · simp only [finished, Bool.and_true, Bool.true_and, Bool.not_or,
              Bool.and_eq_true, Bool.not_eq_true'] at enabled
            exact enabled.2.1
  | true =>
      obtain ⟨output, working, waiting⟩ := decrypting encdata
      have early : ∀ j : ℕ, accelerator.core.j = j → j ≤ 31 →
          accelerator.signals.decdataReady = false := by
        intro j same below
        cases decdata : accelerator.signals.decdataReady with
        | false => rfl
        | true =>
            have last := ended decdata
            omega
      cases ciphered with
      | idle disabled =>
          refine ⟨output, fun decdata enabled => ?_, fun decdata _ => ?_⟩
          · rcases commanded with ⟨mode, _⟩ | ⟨_, enabled'⟩
            · have start := waiting decdata disabled
              refine ⟨mode, ?_⟩
              rw [start]
              exact computed_zero
            · simp [enabled', disabled] at enabled
          · exact waiting decdata disabled
      | round enabled before =>
          have decdata := early _ rfl (by omega)
          obtain ⟨mode, enciphered⟩ := working decdata enabled
          have last := counted.encrypted encdata
          have keyOf : scheduled accelerator.signals.mode keys
              accelerator.core.j = modeKey false key accelerator.core.j := by
            rw [mode]
            exact scheduled_eq expanded (by omega) (fun never => by cases never)
              (fun _ => by omega)
          have kept : (controlProc accelerator.rst accelerator.socket
              accelerator.signals).mode = false := by
            rcases commanded with ⟨backward, _⟩ | ⟨same, _⟩
            · exact backward
            · exact same.trans mode
          have enabledLater : (controlProc accelerator.rst accelerator.socket
              accelerator.signals).encDecEn = true := by
            rcases commanded with ⟨_, enables⟩ | ⟨_, same⟩
            · exact enables
            · exact same.trans enabled
          refine ⟨fun done => by simp [decdata] at done,
            fun _ _ => ⟨kept, ?_⟩, fun _ disabled => ?_⟩
          · exact enciphered.cryptRound (agrees enabled encdata) keyOf
          · simp [enabledLater, kept, decdata] at disabled
      | encrypted enabled forward end_eq =>
          have decdata := early _ end_eq (by omega)
          have backward := (working decdata enabled).1
          simp [forward] at backward
      | decrypted enabled mode end_eq =>
          have decdata := early _ end_eq (by omega)
          obtain ⟨_, enciphered⟩ := working decdata enabled
          have last := counted.encrypted encdata
          have keyOf : scheduled accelerator.signals.mode keys
              accelerator.core.j = modeKey false key accelerator.core.j := by
            rw [mode]
            exact scheduled_eq expanded (by omega) (fun never => by cases never)
              (fun _ => by omega)
          have after := enciphered.cryptRound (agrees enabled encdata) keyOf
          rw [end_eq] at after
          have result := after.finished
          refine ⟨fun _ => congrArg concat result, fun never => ?_,
            fun never => ?_⟩
          · cases never
          · cases never

end Edge

theorem flagged_of_low {accelerator : Accelerator} (stable : Stable accelerator)
    (low : accelerator.signals.coreRst = false) : Flagged accelerator := by
  obtain ⟨_, _, decdata, _, second⟩ := stable.reset low
  have zero := stable.dataState_of_low low
  exact {
    counted := counted_of_low stable low
    ended := fun done => by simp [decdata] at done
    unstarted := fun _ _ => second
    reported := by
      refine ⟨?_, ?_, ?_⟩ <;> rw [zero] <;> exact fun told => absurd told (by decide) }

theorem flagged_edge {keyExpFirst : Bool} {accelerator later : Accelerator}
    (flagged : Flagged accelerator)
    (stepped : edge keyExpFirst accelerator = some later) : Flagged later := by
  have counted : Counted later := counted_edge flagged.counted stepped
  cases runs : later.signals.coreRst with
  | false => exact flagged_of_low counted.stable runs
  | true =>
  cases running : accelerator.signals.coreRst with
  | false =>
      have same := edge_of_low flagged.counted.stable running stepped
      have goesOn : (controlProc accelerator.rst accelerator.socket
          accelerator.signals).coreRst = true := by
        rw [same, settled_coreRst] at runs
        exact runs
      obtain ⟨keys, encdata, decdata, _⟩ := flagged.counted.stable.reset running
      refine ⟨counted, ?_, ?_, ?_⟩
      · rw [same, settled_of_running rfl goesOn]
        exact nofun
      · rw [same, settled_of_running rfl goesOn]
        exact fun _ _ => rfl
      · rw [same]
        exact reported_settled goesOn flagged.reported
          (fun done => by simp [keys] at done)
          (fun done => by simp [encdata] at done)
          (fun done => by simp [decdata] at done)
  | true =>
      have released : accelerator.rst = true := by
        cases held : accelerator.rst with
        | true => rfl
        | false => simp [flagged.counted.held held] at running
      obtain ⟨rkReady, i, rk, crypted, keyed, ciphered, same⟩ :=
        edge_of_running flagged.counted.stable running stepped
      have goesOn : (controlProc accelerator.rst accelerator.socket
          accelerator.signals).coreRst = true := by
        rw [same, settled_coreRst] at runs
        exact runs
      have dataKept := (controlProc_enables goesOn released).2
      refine ⟨counted, ?_, ?_, ?_⟩
      · rw [same, settled_of_running rfl goesOn]
        intro done
        cases ciphered with
        | idle disabled => exact flagged.ended done
        | round enabled early =>
            have last := flagged.ended done
            omega
        | encrypted enabled mode end_eq =>
            have last := flagged.ended done
            omega
        | decrypted enabled mode end_eq => rfl
      · rw [same, settled_of_running rfl goesOn]
        intro disabled unended
        cases ciphered with
        | idle resting => exact flagged.unstarted resting unended
        | round enabled early =>
            simp only at unended
            simp [dataKept enabled, unended] at disabled
        | encrypted enabled mode end_eq => rfl
        | decrypted enabled mode end_eq =>
            simp only at unended
            simp [dataKept enabled, unended] at disabled
      · rw [same]
        obtain ⟨_, ready, _, grown, _⟩ := flagged.counted.keyed running keyed
        refine reported_settled goesOn flagged.reported (fun done => ?_)
          (fun done => ?_) (fun done => ?_)
        · have last := (flagged.counted.ready running).mp done
          rw [ready]
          omega
        · cases ciphered <;> simp [done]
        · cases ciphered <;> simp [done]

/-- Only the command for a key takes the core out of its reset. -/
theorem not_starts {socket : Socket} {command : Command}
    (inForce : socket.dataOptOut = command.code ∨ 4 ≤ socket.dataOptOut)
    (other : command ≠ .key) : socket.dataOptOut ≠ 1 := by
  intro starts
  rw [starts] at inForce
  cases command
  · exact other rfl
  · exact absurd inForce (by decide)
  · exact absurd inForce (by decide)

theorem tracked_edge {keyExpFirst : Bool} {accelerator later : Accelerator}
    {history : History} (tracked : Tracked ⟨accelerator, history⟩)
    (timely : accelerator.signals.coreRst = true →
      TimelyRounds ⟨accelerator, history⟩)
    (stepped : edge keyExpFirst accelerator = some later) :
    Tracked ⟨later, history⟩ := by
  have flaggedLater : Flagged later := flagged_edge tracked.flagged stepped
  obtain ⟨flagged, register, inForce, before, encrypting, decrypting⟩ := tracked
  dsimp only at register inForce before encrypting decrypting
  have socket : later.socket = accelerator.socket := by
    obtain ⟨_, _, _, _, _, _, rfl⟩ :=
      edge_eq_some flagged.counted.stable stepped
    rfl
  -- In its reset the core holds nothing, and out of it comes a new key.
  have fresh : accelerator.signals.coreRst = false →
      later.signals.coreRst = true → later.core.i = 0 ∧
        accelerator.socket.dataOptOut = 1 := by
    intro low runs
    have same := edge_of_low flagged.counted.stable low stepped
    have goesOn : (controlProc accelerator.rst accelerator.socket
        accelerator.signals).coreRst = true := by
      rw [same, settled_coreRst] at runs
      exact runs
    refine ⟨?_, (controlProc_starts low goesOn).2.1⟩
    rw [same, settled_of_running rfl goesOn]
  have ran : accelerator.signals.coreRst = true →
      ∃ rkReady i rk crypted,
        Keyed accelerator.signals accelerator.core rkReady i rk ∧
        Ciphered accelerator.signals
          (if keyExpFirst then rk else accelerator.core.rk) accelerator.core
            crypted ∧
        later = accelerator.settled rkReady i rk crypted ∧
        Expanded history.key i rk ∧
        Expanded history.key accelerator.core.i
          (if keyExpFirst then rk else accelerator.core.rk) ∧
        accelerator.rst = true := by
    intro running
    obtain ⟨rkReady, i, rk, crypted, keyed, ciphered, same⟩ :=
      edge_of_running flagged.counted.stable running stepped
    have expanded := (before running).keyed (timely running).1 keyed
    obtain ⟨_, _, _, grown, _⟩ := flagged.counted.keyed running keyed
    refine ⟨rkReady, i, rk, crypted, keyed, ciphered, same, expanded,
      expanded_either grown expanded (before running), ?_⟩
    cases held : accelerator.rst with
    | true => rfl
    | false =>
        have low : accelerator.signals.coreRst = false :=
          flagged.counted.held held
        rw [low] at running
        cases running
  refine {
    flagged := flaggedLater
    register := by rw [socket]; exact register
    inForce := by rw [socket]; exact inForce
    expanded := fun runs => ?_
    encrypting := fun asked runs => ?_
    decrypting := fun asked encdata => ?_ }
  · dsimp only at runs ⊢
    cases running : accelerator.signals.coreRst with
    | false =>
        rw [(fresh running runs).1]
        exact computed_zero
    | true =>
        obtain ⟨rkReady, i, rk, crypted, _, _, same, expanded, _⟩ := ran running
        rw [same, settled_coreRst] at runs
        rw [same, settled_of_running rfl runs]
        exact expanded
  · dsimp only at asked runs ⊢
    have command : accelerator.socket.dataOptOut = 2 ∨
        4 ≤ accelerator.socket.dataOptOut := inForce _ asked
    cases running : accelerator.signals.coreRst with
    | false =>
        exact absurd (fresh running runs).2 (not_starts (inForce _ asked) nofun)
    | true =>
        obtain ⟨rkReady, i, rk, crypted, keyed, ciphered, same, _, either,
          released⟩ := ran running
        rw [same]
        exact (encrypting asked running).edge flagged.counted released running
          flagged.unstarted
          (fun enabled => (timely running).2 enabled (.inl asked)) either keyed
          ciphered command
  · dsimp only at asked encdata ⊢
    have command : accelerator.socket.dataOptOut = 3 ∨
        4 ≤ accelerator.socket.dataOptOut := inForce _ asked
    have runs : later.signals.coreRst = true := by
      cases low : later.signals.coreRst with
      | true => rfl
      | false =>
          have cleared := (flaggedLater.counted.stable.reset low).2.1
          simp [cleared] at encdata
    cases running : accelerator.signals.coreRst with
    | false =>
        exact absurd (fresh running runs).2 (not_starts (inForce _ asked) nofun)
    | true =>
        obtain ⟨rkReady, i, rk, crypted, keyed, ciphered, same, _, either,
          released⟩ := ran running
        rw [same, settled_coreRst] at runs
        rw [same, settled_of_running rfl runs] at encdata
        rw [same]
        exact Decrypting.edge flagged.counted released running flagged.ended
          (decrypting asked)
          (fun enabled ended => (timely running).2 enabled (.inr ⟨asked, ended⟩))
          either keyed ciphered encdata command

/-! ## Writes -/

theorem Flagged.congr {accelerator later : Accelerator}
    (flagged : Flagged accelerator) (counted : Counted later)
    (signals : later.signals = accelerator.signals)
    (core : later.core = accelerator.core) : Flagged later where
  counted := counted
  ended := by
    rw [signals, core]
    exact flagged.ended
  unstarted := by
    rw [signals, core]
    exact flagged.unstarted
  reported := by
    rw [signals]
    exact flagged.reported

/-- A timely control word. -/
theorem tracked_ask {accelerator : Accelerator} {history : History}
    (tracked : Tracked ⟨accelerator, history⟩)
    (timely : accelerator.signals.coreRst = true →
      TimelyCommand ⟨accelerator, history⟩ accelerator.socket.controlInReg
        accelerator.socket.xInReg)
    (counted : Counted { accelerator with socket := accelerator.socket.finish }) :
    Tracked ⟨{ accelerator with socket := accelerator.socket.finish },
      history.ask accelerator.socket.controlInReg accelerator.socket.xInReg⟩ := by
  have flagged : Flagged { accelerator with socket := accelerator.socket.finish } :=
    tracked.flagged.congr counted rfl rfl
  obtain ⟨_, _, inForce, expanded, encrypting, decrypting⟩ := tracked
  dsimp only at inForce expanded encrypting decrypting
  obtain ⟨rst, socket, signals, core⟩ := accelerator
  dsimp only at timely flagged inForce expanded encrypting decrypting ⊢
  generalize control_eq : socket.controlInReg = control at *
  generalize socket.xInReg = words at *
  have command : socket.finish.dataOptOut = control := control_eq
  have register : socket.finish.controlInReg = socket.finish.dataOptOut := rfl
  by_cases reset : control = 0
  · rw [History.ask, if_pos reset]
    exact ⟨flagged, fun _ => register, nofun, expanded, nofun, nofun⟩
  by_cases key : control = 1
  · rw [History.ask, if_neg reset, if_pos key]
    refine ⟨flagged, fun _ => register, ?_, fun running => ?_, nofun, nofun⟩
    · rintro _ ⟨⟩
      exact .inl (command.trans key)
    · have same : words = history.key := (timely running).1 key
      rw [same]
      exact expanded running
  by_cases encryption : control = 2
  · rw [History.ask, if_neg reset, if_neg key, if_pos encryption]
    refine ⟨flagged, fun _ => register, ?_, expanded, fun _ running => ?_, nofun⟩
    · rintro _ ⟨⟩
      exact .inl (command.trans encryption)
    · rcases (timely running).2.1 encryption with
        ⟨asked, same⟩ | ⟨disabled, result⟩
      · rw [same]
        exact encrypting asked running
      · refine ⟨fun ended => ⟨disabled, result ended⟩, fun _ enabled => ?_⟩
        dsimp only at disabled enabled
        rw [disabled] at enabled
        cases enabled
  by_cases decryption : control = 3
  · rw [History.ask, if_neg reset, if_neg key, if_neg encryption,
      if_pos decryption]
    refine ⟨flagged, fun _ => register, ?_, expanded, nofun, fun _ encdata => ?_⟩
    · rintro _ ⟨⟩
      exact .inl (command.trans decryption)
    · have running : signals.coreRst = true := by
        cases low : signals.coreRst with
        | true => rfl
        | false =>
            have cleared : signals.encdataReady = false :=
              (flagged.counted.stable.reset low).2.1
            dsimp only at encdata
            rw [cleared] at encdata
            cases encdata
      rcases (timely running).2.2 decryption encdata with
        ⟨asked, same⟩ | ⟨unended, disabled, start⟩ | ⟨ended, result⟩
      · rw [same]
        exact decrypting asked encdata
      · dsimp only at unended disabled start
        refine ⟨fun ended => ?_, fun _ enabled => ?_, fun _ _ => start⟩
        · rw [unended] at ended
          cases ended
        · rw [disabled] at enabled
          cases enabled
      · dsimp only at ended
        refine ⟨fun _ => result, fun unended => ?_, fun unended => ?_⟩ <;>
          rw [ended] at unended <;> cases unended
  · rw [History.ask, if_neg reset, if_neg key, if_neg encryption,
      if_neg decryption]
    have unknown : 4 ≤ socket.finish.dataOptOut := by
      rw [command]
      bv_omega
    exact ⟨flagged, fun _ => register, fun _ _ => .inr unknown, expanded,
      encrypting, decrypting⟩

/-- A write begins without touching the command in force. -/
theorem begin_spec (socket : Socket) (addr : ℕ) (data : Word) :
    (socket.begin addr data).dataOptOut = socket.dataOptOut ∧
      (addr = 0x20 ∧ (socket.begin addr data).writing = true ∨
        (socket.begin addr data).controlInReg = socket.controlInReg) := by
  simp only [Socket.begin, Socket.setRegister]
  split <;> rename_i register <;> split at register <;> simp_all <;>
    subst register <;> simp

theorem tracked_step {used later : Used} {event : Event} (tracked : Tracked used)
    (timely : Timely used event) (follows : Follows used event later) :
    Tracked later := by
  obtain ⟨accelerator, history⟩ := used
  obtain ⟨next, historyNext⟩ := later
  obtain ⟨stepped, asks⟩ := follows
  dsimp only at stepped asks
  have counted : Counted next := counted_step tracked.flagged.counted stepped
  subst asks
  cases event with
  | release =>
      cases stepped
      have flagged := tracked.flagged.congr counted rfl rfl
      exact ⟨flagged, tracked.register, tracked.inForce, tracked.expanded,
        tracked.encrypting, tracked.decrypting⟩
  | edge keyExpFirst => exact tracked_edge tracked timely stepped
  | begin addr data =>
      by_cases writing : accelerator.socket.writing = true
      · simp only [step, writing, if_true] at stepped
        cases stepped
        simp only [History.next, writing, if_true]
        exact tracked
      · have idle : accelerator.socket.writing = false := by
          simpa using writing
        simp only [step, idle, Bool.false_eq_true, if_false] at stepped
        cases stepped
        simp only [History.next, idle, Bool.false_eq_true, if_false]
        obtain ⟨inForce, register⟩ := begin_spec accelerator.socket addr data
        have before : accelerator.socket.controlInReg =
            accelerator.socket.dataOptOut :=
          tracked.register (by simp [idle])
        refine ⟨tracked.flagged.congr counted rfl rfl, fun other => ?_, ?_,
          tracked.expanded, tracked.encrypting, tracked.decrypting⟩
        · rcases register with ⟨control, begun⟩ | kept
          · subst control
            simp [begun] at other
          · exact kept.trans (before.trans inForce.symm)
        · intro command asked
          rw [inForce]
          exact tracked.inForce command asked
  | finish =>
      by_cases writing : accelerator.socket.writing = true
      · simp only [step, writing, if_true] at stepped
        cases stepped
        cases commanding : history.commanding with
        | true =>
            simp only [History.next, writing, commanding, Bool.and_true, if_true]
            exact tracked_ask tracked (timely writing commanding) counted
        | false =>
            have kept : accelerator.socket.controlInReg =
                accelerator.socket.dataOptOut :=
              tracked.register (by simp [commanding])
            simp only [History.next, commanding, Bool.and_false,
              Bool.false_eq_true, if_false]
            refine ⟨tracked.flagged.congr counted rfl rfl, fun _ => rfl, ?_,
              tracked.expanded, tracked.encrypting, tracked.decrypting⟩
            intro command asked
            simp only [Socket.finish, kept]
            exact tracked.inForce command asked
      · have idle : accelerator.socket.writing = false := by
          simpa using writing
        simp only [step, idle, Bool.false_eq_true, if_false] at stepped
        cases stepped
        simp only [History.next, idle, Bool.false_and, Bool.false_eq_true,
          if_false]
        exact tracked

/-- In every run whose commands and rounds are timely, a completed command's
outcome is there whenever its completion is. -/
theorem fresh_of_timely {events : List Event}
    (timely : EveryStep Follows Timely events .initial) :
    EveryState Follows Fresh events .initial := by
  have kept : ∀ used event later, Tracked used → Timely used event →
      Follows used event later → Tracked later :=
    fun _ _ _ tracked timely follows => tracked_step tracked timely follows
  have tracked := everyState_of_everyStep kept tracked_initial timely
  exact tracked.imp fun _ => Tracked.fresh

/-! ## Checking a run -/

instance (value : BitVec 128) (block : Block Word) (round : ℕ) :
    Decidable (Agrees value block round) :=
  inferInstanceAs (Decidable (∀ index < 4, round ≤ index →
    (ranges value).get index = block.get index))

instance (used : Used) (control : Word) (words : Block Word) :
    Decidable (TimelyCommand used control words) :=
  inferInstanceAs (Decidable ((_ → _ = _) ∧ (_ → _ ∧ _ ∨ _ ∧ (_ → _)) ∧
    (_ → _ → _ ∧ _ ∨ _ ∧ _ ∧ _ ∨ _ ∧ _)))

instance (used : Used) : Decidable (TimelyRounds used) :=
  inferInstanceAs (Decidable ((_ → Agrees _ _ _) ∧ (_ → _ ∨ _ ∧ _ →
    Agrees _ _ _)))

instance (used : Used) : (event : Event) → Decidable (Timely used event)
  | .finish => inferInstanceAs (Decidable (_ → _ → _ → _))
  | .edge _ => inferInstanceAs (Decidable (_ → _))
  | .release => inferInstanceAs (Decidable True)
  | .begin _ _ => inferInstanceAs (Decidable True)

def Used.step (used : Used) (event : Event) : Option Used :=
  (Sm4.step used.accelerator event).map fun later =>
    ⟨later, used.history.next used.accelerator.socket event⟩

/-- Whether all steps are timely. -/
def timelyAlong : List Event → Used → Bool
  | [], _ => true
  | event :: events, used => decide (Timely used event) &&
      match used.step event with
      | some later => timelyAlong events later
      | none => true

theorem step_of_follows {used later : Used} {event : Event}
    (follows : Follows used event later) : used.step event = some later := by
  obtain ⟨stepped, asks⟩ := follows
  simp [Used.step, stepped, ← asks]

theorem everyStep_of_timelyAlong {events : List Event} {used : Used}
    (checked : timelyAlong events used = true) :
    EveryStep Follows Timely events used := by
  induction events generalizing used with
  | nil => trivial
  | cons event events inductionHypothesis =>
      intro later follows
      simp only [timelyAlong, step_of_follows follows, Bool.and_eq_true,
        decide_eq_true_eq] at checked
      exact ⟨checked.1, inductionHypothesis checked.2⟩

/-- A key, an encryption and a decryption, each waited for. -/
def oneBlock : List Event :=
  [.release, .begin 0x20 1, .edge true, .finish] ++ edges 34 ++
    [.begin 0x00 1, .edge false, .finish, .begin 0x20 2, .edge true, .finish] ++
    edges 34 ++ [.begin 0x20 3, .edge true, .finish] ++ edges 34

theorem fresh_oneBlock : EveryState Follows Fresh oneBlock .initial :=
  fresh_of_timely (everyStep_of_timelyAlong (by decide +kernel))

/-! ## A second key -/

/-- A key is expanded, another one is written, and no reset comes between. -/
def secondKey : List Event :=
  [.release, .begin 0x20 1, .edge true, .finish] ++ edges 34 ++
    [.begin 0x00 1, .edge true, .finish, .begin 0x20 1, .edge true, .finish]

theorem follows_of_step (used : Used) (event : Event) (later : Used)
    (stepped : used.step event = some later) : Follows used event later := by
  obtain ⟨accelerator, taken, rfl⟩ := Option.map_eq_some_iff.mp stepped
  exact ⟨taken, rfl⟩

theorem not_fresh : ¬ EveryState Follows Fresh secondKey .initial := by
  intro every
  have ends : ((secondKey.foldlM Used.step .initial).map fun used =>
      decide (used.history.asked = some .key) &&
        decide (used.accelerator.read 0x24 = some 2) &&
        !decide (used.accelerator.core.rk 4 = roundKey used.history.key 0)) =
          some true := by
    decide +kernel
  obtain ⟨used, ran, checked⟩ := Option.map_eq_some_iff.mp ends
  simp only [Bool.and_eq_true, decide_eq_true_eq, Bool.not_eq_true',
    decide_eq_false_iff_not] at checked
  obtain ⟨⟨asked, complete⟩, stale⟩ := checked
  have fresh := every.of_foldlM follows_of_step ran
  rw [Fresh, asked] at fresh
  exact stale (fresh complete 0 (by decide))

end Sm4

end RiscvVp
