import RiscvVp.Device.Trace
import RiscvVp.Sm4.Rounds

/-!
# The round counters

Every access of the core to its arrays is valid as long as no decryption ends
before an encryption has ended.  `state_proc` clears the enable signal of a
decryption only when both have ended, and the round counter runs on past 32
otherwise.
-/

namespace RiscvVp

namespace Sm4

open Feistel Trace

def Steps (accelerator : Accelerator) (event : Event) (later : Accelerator) :
    Prop :=
  step accelerator event = some later

/-- The counters are in range, and whatever order the processes of the core run
in at the next edge, no access leaves an array. -/
def Safe (accelerator : Accelerator) : Prop :=
  accelerator.core.i ≤ 32 ∧ accelerator.core.j ≤ 32 ∧
    ∀ keyExpFirst, (edge keyExpFirst accelerator).isSome = true

/-- The event is the edge at which a decryption ends that no encryption has
preceded since the core was reset, and the core is not being reset. -/
def EndsUnpreceded (accelerator : Accelerator) : Event → Prop
  | .edge _ =>
      accelerator.signals.coreRst = true ∧ accelerator.signals.encDecEn = true ∧
        accelerator.signals.mode = false ∧ accelerator.core.j = 31 ∧
        accelerator.signals.encdataReady = false ∧
        accelerator.socket.dataOptOut ≠ 0
  | _ => False

/-! ## What an edge can do -/

/-- The state after an edge, from what the two processes of the core leave. -/
def Accelerator.settled (accelerator : Accelerator) (rkReady : Bool) (i : ℕ)
    (rk : ℕ → Word) (crypted : Crypted) : Accelerator :=
  { accelerator with
    signals := quiesce (evaluated accelerator rkReady crypted)
    core := quiesceCore (evaluated accelerator rkReady crypted)
      ⟨i, crypted.j, rk, crypted.x⟩ }

theorem edge_eq_some {keyExpFirst : Bool} {accelerator later : Accelerator}
    (stable : Stable accelerator)
    (stepped : edge keyExpFirst accelerator = some later) :
    ∃ rkReady i rk crypted,
      keyStep accelerator.signals accelerator.core = some (rkReady, i, rk) ∧
      cryptStep accelerator.signals
        (if keyExpFirst then rk else accelerator.core.rk) accelerator.core =
          some crypted ∧
      later = accelerator.settled rkReady i rk crypted := by
  rw [edge_eq keyExpFirst stable, evaluate_eq] at stepped
  simp only [Option.map_eq_some_iff, Option.bind_eq_bind,
    Option.bind_eq_some_iff, Option.pure_def, Option.some.injEq] at stepped
  obtain ⟨_, ⟨⟨rkReady, i, rk⟩, keyed, crypted, ciphered, rfl⟩, rfl⟩ := stepped
  exact ⟨rkReady, i, rk, crypted, keyed, ciphered, rfl⟩

theorem keyStep_isSome (now : Signals) (core : Core) :
    (keyStep now core).isSome = true ↔
      (now.coreRst = true → now.keyExpEn = true → core.i < 32) := by
  cases running : now.coreRst with
  | false => simp [keyStep, running]
  | true =>
      cases enabled : now.keyExpEn with
      | false => simp [keyStep_idle core running enabled]
      | true =>
          rw [keyStep_enabled core running enabled]
          by_cases within : core.i < 32 <;> simp [within]

theorem cryptStep_isSome (now : Signals) (rk : ℕ → Word) (core : Core) :
    (cryptStep now rk core).isSome = true ↔
      (now.coreRst = true → now.encDecEn = true → core.j < 32) := by
  cases running : now.coreRst with
  | false => simp [cryptStep, running]
  | true =>
      cases enabled : now.encDecEn with
      | false => simp [cryptStep_idle rk core running enabled]
      | true =>
          rw [cryptStep_enabled rk core running enabled]
          by_cases within : core.j < 32 <;> simp [within]

/-- An enabled process goes on exactly below round 32. -/
theorem edge_isSome (keyExpFirst : Bool) {accelerator : Accelerator}
    (stable : Stable accelerator) :
    (edge keyExpFirst accelerator).isSome = true ↔
      (accelerator.signals.coreRst = true →
        accelerator.signals.keyExpEn = true → accelerator.core.i < 32) ∧
      (accelerator.signals.coreRst = true →
        accelerator.signals.encDecEn = true → accelerator.core.j < 32) := by
  rw [← keyStep_isSome, edge_eq keyExpFirst stable, Option.isSome_map,
    evaluate_eq]
  cases keyStep accelerator.signals accelerator.core with
  | none => simp
  | some keys =>
      rw [← cryptStep_isSome accelerator.signals
        (if keyExpFirst then keys.2.2 else accelerator.core.rk)]
      cases ciphered : cryptStep accelerator.signals
        (if keyExpFirst then keys.2.2 else accelerator.core.rk)
          accelerator.core <;> simp [ciphered]

/-- The signals that a command leaves, as long as nothing resets the core. -/
theorem settled_of_running {accelerator : Accelerator} {rkReady : Bool} {i : ℕ}
    {rk : ℕ → Word} {crypted : Crypted} {signals : Signals}
    (commanded : controlProc accelerator.rst accelerator.socket
      accelerator.signals = signals)
    (running : signals.coreRst = true) :
    accelerator.settled rkReady i rk crypted =
      { accelerator with
        signals :=
          { signals with
            keyExpEn := signals.keyExpEn && !rkReady
            encDecEn := signals.encDecEn && !(rkReady && crypted.encdataReady &&
              (signals.mode || crypted.decdataReady))
            rkReady := rkReady
            encdataReady := crypted.encdataReady
            decdataReady := crypted.decdataReady
            dataState := reported (evaluated accelerator rkReady crypted)
            dataOut := crypted.dataOut }
        core := ⟨i, crypted.j, rk, crypted.x⟩ } := by
  subst commanded
  simp [Accelerator.settled, quiesce, quiesceCore, evaluated, running]

theorem settled_coreRst (accelerator : Accelerator) (rkReady : Bool) (i : ℕ)
    (rk : ℕ → Word) (crypted : Crypted) :
    (accelerator.settled rkReady i rk crypted).signals.coreRst =
      (controlProc accelerator.rst accelerator.socket
        accelerator.signals).coreRst := by
  rw [Accelerator.settled, quiesce_coreRst, evaluated]

theorem edge_of_running {keyExpFirst : Bool} {accelerator later : Accelerator}
    (stable : Stable accelerator) (running : accelerator.signals.coreRst = true)
    (stepped : edge keyExpFirst accelerator = some later) :
    ∃ rkReady i rk crypted,
      Keyed accelerator.signals accelerator.core rkReady i rk ∧
      Ciphered accelerator.signals
        (if keyExpFirst then rk else accelerator.core.rk) accelerator.core
          crypted ∧
      later = accelerator.settled rkReady i rk crypted := by
  obtain ⟨rkReady, i, rk, crypted, keyed, ciphered, same⟩ :=
    edge_eq_some stable stepped
  exact ⟨rkReady, i, rk, crypted, keyed_of_keyStep running keyed,
    ciphered_of_cryptStep running ciphered, same⟩

theorem edge_of_low {keyExpFirst : Bool} {accelerator later : Accelerator}
    (stable : Stable accelerator) (low : accelerator.signals.coreRst = false)
    (stepped : edge keyExpFirst accelerator = some later) :
    later = accelerator.settled false 0 accelerator.core.rk
      ⟨false, false, accelerator.signals.dataOut, 0, accelerator.core.x⟩ := by
  rw [edge_eq keyExpFirst stable, evaluate_of_low keyExpFirst low] at stepped
  exact (Option.some.inj stepped).symm

/-- Without a reset a command only sets enable signals. -/
theorem controlProc_enables {rst : Bool} {socket : Socket} {now : Signals}
    (running : (controlProc rst socket now).coreRst = true)
    (released : rst = true) :
    (now.keyExpEn = true → (controlProc rst socket now).keyExpEn = true) ∧
      (now.encDecEn = true → (controlProc rst socket now).encDecEn = true) := by
  simp only [controlProc, released, Bool.not_true, Bool.false_eq_true,
    if_false] at running ⊢
  split_ifs at running ⊢ <;> simp_all

theorem controlProc_coreRst {rst : Bool} {socket : Socket} {now : Signals}
    (released : rst = true) (running : now.coreRst = true) :
    (controlProc rst socket now).coreRst = true ↔ socket.dataOptOut ≠ 0 := by
  simp only [controlProc, released, Bool.not_true, Bool.false_eq_true, if_false]
  split_ifs <;> simp_all

/-- Only the command for a key takes the core out of its reset. -/
theorem controlProc_starts {rst : Bool} {socket : Socket} {now : Signals}
    (low : now.coreRst = false)
    (running : (controlProc rst socket now).coreRst = true) :
    rst = true ∧ socket.dataOptOut = 1 ∧
      (controlProc rst socket now).keyExpEn = true ∧
      (controlProc rst socket now).key = socket.dataOut := by
  simp only [controlProc] at running ⊢
  split_ifs at running ⊢ <;> simp_all

/-! ## The invariant -/

/-- The key schedule is enabled until its 32 rounds are over, and the cipher is
never ahead of it. -/
structure Counted (accelerator : Accelerator) : Prop where
  stable : Stable accelerator
  held : accelerator.rst = false → accelerator.signals.coreRst = false
  enabled : accelerator.signals.coreRst = true →
    accelerator.signals.keyExpEn = !accelerator.signals.rkReady
  scheduled : accelerator.core.i ≤ 32
  ready : accelerator.signals.coreRst = true →
    (accelerator.signals.rkReady = true ↔ accelerator.core.i = 32)
  behind : accelerator.core.j ≤ accelerator.core.i
  encrypted : accelerator.signals.encdataReady = true → accelerator.core.i = 32
  ended : accelerator.core.j = 32 →
    accelerator.signals.decdataReady = true ∧
      (accelerator.signals.encdataReady = true ∨
        accelerator.signals.encDecEn = true)

theorem counted_initial : Counted Accelerator.initial where
  stable := stable_initial
  held := fun _ => rfl
  enabled := nofun
  scheduled := Nat.zero_le 32
  ready := nofun
  behind := Nat.le_refl 0
  encrypted := nofun
  ended := nofun

/-- The key schedule of a running core at an edge. -/
theorem Counted.keyed {accelerator : Accelerator} {rkReady : Bool} {i : ℕ}
    {rk : ℕ → Word} (counted : Counted accelerator)
    (running : accelerator.signals.coreRst = true)
    (keyed : Keyed accelerator.signals accelerator.core rkReady i rk) :
    i ≤ 32 ∧ (rkReady = true ↔ i = 32) ∧
      (rkReady = false → accelerator.signals.keyExpEn = true) ∧
      accelerator.core.i ≤ i ∧
      (accelerator.core.i < 32 → i = accelerator.core.i + 1) := by
  have enabled := counted.enabled running
  have ready := counted.ready running
  cases keyed with
  | idle disabled =>
      have finished : accelerator.signals.rkReady = true := by
        simpa [disabled] using enabled
      have last := ready.mp finished
      simp [finished, last]
  | round enabling early =>
      have unfinished : accelerator.signals.rkReady = false := by
        simpa [enabling] using enabled
      rw [unfinished]
      refine ⟨by omega, ?_, fun _ => enabling, by omega, fun _ => rfl⟩
      simp only [Bool.false_eq_true, false_iff]
      omega
  | last enabling end_eq => simp [end_eq]

theorem counted_of_low {accelerator : Accelerator} (stable : Stable accelerator)
    (low : accelerator.signals.coreRst = false) : Counted accelerator := by
  obtain ⟨_, encdata, _, first, second⟩ := stable.reset low
  exact {
    stable := stable
    held := fun _ => low
    enabled := fun running => by simp [low] at running
    scheduled := by omega
    ready := fun running => by simp [low] at running
    behind := by omega
    encrypted := fun ready => by simp [encdata] at ready
    ended := fun last => by omega }

theorem counted_edge {keyExpFirst : Bool} {accelerator later : Accelerator}
    (counted : Counted accelerator)
    (stepped : edge keyExpFirst accelerator = some later) : Counted later := by
  have taken : step accelerator (.edge keyExpFirst) = some later := stepped
  have stable : Stable later := stable_step counted.stable taken
  cases runs : later.signals.coreRst with
  | false => exact counted_of_low stable runs
  | true =>
  cases running : accelerator.signals.coreRst with
  | false =>
      have same := edge_of_low counted.stable running stepped
      have commanded : (controlProc accelerator.rst accelerator.socket
          accelerator.signals).coreRst = true := by
        rw [same, settled_coreRst] at runs
        exact runs
      obtain ⟨released, _, enabled, _⟩ := controlProc_starts running commanded
      rw [settled_of_running rfl commanded] at same
      subst same
      exact {
        stable := stable
        held := fun low => by simp [released] at low
        enabled := fun _ => by simp [enabled]
        scheduled := Nat.zero_le 32
        ready := fun _ => by simp
        behind := Nat.le_refl 0
        encrypted := nofun
        ended := nofun }
  | true =>
      have released : accelerator.rst = true := by
        cases held : accelerator.rst with
        | true => rfl
        | false => simp [counted.held held] at running
      obtain ⟨rkReady, i, rk, crypted, keyed, ciphered, same⟩ :=
        edge_of_running counted.stable running stepped
      have commanded : (controlProc accelerator.rst accelerator.socket
          accelerator.signals).coreRst = true := by
        rw [same, settled_coreRst] at runs
        exact runs
      obtain ⟨keyKept, dataKept⟩ := controlProc_enables commanded released
      rw [settled_of_running rfl commanded] at same
      subst same
      obtain ⟨scheduled, ready, enabled, grown, advanced⟩ :=
        counted.keyed running keyed
      have behind := counted.behind
      have encrypted := counted.encrypted
      have ended := counted.ended
      refine {
        stable := stable
        held := fun low => by simp [released] at low
        enabled := fun _ => ?_
        scheduled := scheduled
        ready := fun _ => ready
        behind := ?_
        encrypted := ?_
        ended := ?_ }
      · cases rkReady with
        | true => simp
        | false => simp [keyKept (enabled rfl)]
      · cases ciphered <;> simp only <;> omega
      · intro encdata
        have finished : accelerator.signals.encdataReady = true ∨
            accelerator.core.j = 31 := by
          cases ciphered with
          | encrypted enabled mode end_eq => exact .inr end_eq
          | _ => exact .inl encdata
        rcases finished with before | now
        · have last := encrypted before
          change i = 32
          omega
        · change i = 32
          omega
      · intro last
        cases ciphered with
        | idle disabled =>
            obtain ⟨decdata, encdata | enabled⟩ := ended last
            · exact ⟨decdata, .inl encdata⟩
            · simp [disabled] at enabled
        | round enabled early =>
            simp only at last
            omega
        | encrypted enabled mode end_eq => simp at last
        | decrypted enabled mode end_eq =>
            cases encdata : accelerator.signals.encdataReady <;>
              simp [dataKept enabled]

theorem counted_step {accelerator later : Accelerator} {event : Event}
    (counted : Counted accelerator) (stepped : Steps accelerator event later) :
    Counted later := by
  have stable : Stable later := stable_step counted.stable stepped
  -- Apart from the edge, an event leaves the signals and the core alone.
  have kept : later.signals = accelerator.signals →
      later.core = accelerator.core →
      (later.rst = false → accelerator.rst = false) → Counted later := by
    intro signals core rst
    exact {
      stable := stable
      held := fun low => by rw [signals]; exact counted.held (rst low)
      enabled := by rw [signals]; exact counted.enabled
      scheduled := by rw [core]; exact counted.scheduled
      ready := by rw [signals, core]; exact counted.ready
      behind := by rw [core]; exact counted.behind
      encrypted := by rw [signals, core]; exact counted.encrypted
      ended := by rw [signals, core]; exact counted.ended }
  cases event with
  | release =>
      cases stepped
      exact kept rfl rfl nofun
  | edge keyExpFirst => exact counted_edge counted stepped
  | begin addr data =>
      simp only [Steps, step] at stepped
      split_ifs at stepped <;> cases stepped <;> exact kept rfl rfl id
  | finish =>
      simp only [Steps, step] at stepped
      split_ifs at stepped <;> cases stepped <;> exact kept rfl rfl id

/-! ## Safety -/

/-- Between edges the core is safe exactly if no cipher is enabled after its
last round. -/
theorem Counted.safe_iff {accelerator : Accelerator}
    (counted : Counted accelerator) :
    Safe accelerator ↔ ¬ (accelerator.signals.coreRst = true ∧
      accelerator.signals.encDecEn = true ∧ accelerator.core.j = 32) := by
  have scheduled := counted.scheduled
  have behind := counted.behind
  have keys : accelerator.signals.coreRst = true →
      accelerator.signals.keyExpEn = true → accelerator.core.i < 32 := by
    intro running enabled
    have unfinished : accelerator.signals.rkReady = false := by
      simpa [enabled] using counted.enabled running
    have early : accelerator.core.i ≠ 32 := by
      intro last
      have finished := (counted.ready running).mpr last
      simp [unfinished] at finished
    omega
  simp only [Safe, edge_isSome _ counted.stable, forall_const]
  constructor
  · rintro ⟨_, _, _, rounds⟩ ⟨running, enabled, last⟩
    have within := rounds running enabled
    omega
  · intro unended
    refine ⟨scheduled, by omega, keys, fun running enabled => ?_⟩
    have early : accelerator.core.j ≠ 32 :=
      fun last => unended ⟨running, enabled, last⟩
    omega

/-- Whatever happens in a safe state, the next state is safe as well unless a
decryption ends that nothing has preceded. -/
theorem safe_edge {keyExpFirst : Bool} {accelerator later : Accelerator}
    (counted : Counted accelerator)
    (stepped : edge keyExpFirst accelerator = some later) :
    Safe later ↔ ¬ EndsUnpreceded accelerator (.edge keyExpFirst) := by
  rw [(counted_edge counted stepped).safe_iff, not_iff_not, EndsUnpreceded]
  cases running : accelerator.signals.coreRst with
  | false =>
      rw [edge_of_low counted.stable running stepped]
      simp [Accelerator.settled, quiesceCore]
  | true =>
      have released : accelerator.rst = true := by
        cases held : accelerator.rst with
        | true => rfl
        | false => simp [counted.held held] at running
      rw [← controlProc_coreRst released running]
      obtain ⟨rkReady, i, rk, crypted, keyed, ciphered, same⟩ :=
        edge_of_running counted.stable running stepped
      rw [same]
      cases commanded : (controlProc accelerator.rst accelerator.socket
          accelerator.signals).coreRst with
      | false => simp [settled_coreRst, commanded]
      | true =>
          obtain ⟨_, dataKept⟩ := controlProc_enables commanded released
          rw [settled_of_running rfl commanded]
          obtain ⟨_, ready, _, grown, advanced⟩ := counted.keyed running keyed
          have behind := counted.behind
          simp only [commanded, true_and, and_true]
          cases ciphered with
          | idle disabled =>
              simp only [disabled, Bool.false_eq_true, false_and, iff_false,
                not_and]
              intro enabled last
              obtain ⟨decdata, encdata⟩ := counted.ended last
              have preceded : accelerator.signals.encdataReady = true := by
                simpa [disabled] using encdata
              have finished : rkReady = true := by
                rw [ready]
                have scheduled := counted.encrypted preceded
                omega
              simp [finished, preceded, decdata] at enabled
          | round enabled early =>
              have first : ¬ accelerator.core.j + 1 = 32 := by omega
              have second : ¬ accelerator.core.j = 31 := by omega
              simp [first, second]
          | encrypted enabled mode end_eq => simp [mode]
          | decrypted enabled mode end_eq =>
              have finished : rkReady = true := by
                rw [ready]
                omega
              simp [finished, enabled, mode, end_eq, dataKept enabled]

theorem safe_step {accelerator later : Accelerator} {event : Event}
    (counted : Counted accelerator) (safe : Safe accelerator)
    (stepped : Steps accelerator event later) :
    Safe later ↔ ¬ EndsUnpreceded accelerator event := by
  have countedLater := counted_step counted stepped
  have kept : later.signals = accelerator.signals →
      later.core = accelerator.core → Safe later := by
    intro signals core
    rw [countedLater.safe_iff, signals, core]
    exact counted.safe_iff.mp safe
  cases event with
  | edge keyExpFirst => exact safe_edge counted stepped
  | release =>
      cases stepped
      simp [EndsUnpreceded, kept]
  | begin addr data =>
      simp only [Steps, step] at stepped
      split_ifs at stepped <;> cases stepped <;> simp [EndsUnpreceded, kept]
  | finish =>
      simp only [Steps, step] at stepped
      split_ifs at stepped <;> cases stepped <;> simp [EndsUnpreceded, kept]

/-- Along every sequence of writes and edges, all accesses are valid exactly if
no decryption ends that nothing has preceded. -/
theorem counterSafe_iff (events : List Event) :
    EveryState Steps Safe events .initial ↔
      EveryStep Steps (fun accelerator event =>
        ¬ EndsUnpreceded accelerator event) events .initial := by
  have kept : ∀ accelerator event later, Counted accelerator →
      Steps accelerator event later → Counted later :=
    fun _ _ _ counted stepped => counted_step counted stepped
  have exact_step : ∀ accelerator event later, Counted accelerator →
      Safe accelerator → Steps accelerator event later →
      (Safe later ↔ ¬ EndsUnpreceded accelerator event) :=
    fun _ _ _ counted safe stepped => safe_step counted safe stepped
  have first : Safe .initial := by
    rw [counted_initial.safe_iff]
    simp [Accelerator.initial]
  exact everyState_iff_everyStep kept exact_step counted_initial first

/-! ## A decryption alone -/

/-- A number of edges. -/
def edges (count : ℕ) : List Event :=
  List.replicate count (.edge true)

def run (events : List Event) (accelerator : Accelerator) : Option Accelerator :=
  events.foldlM step accelerator

/-- A key is expanded, and a block is decrypted at once. -/
def decryptAlone : List Event :=
  [.release, .begin 0x20 1, .finish] ++ edges 34 ++ [.begin 0x20 3, .finish] ++
    edges 33

theorem not_counterSafe : ¬ EveryState Steps Safe decryptAlone .initial := by
  intro every
  have ends : ((run decryptAlone .initial).map fun accelerator =>
      (edge true accelerator).isSome) = some false := by
    decide +kernel
  obtain ⟨accelerator, ran, fails⟩ := Option.map_eq_some_iff.mp ends
  obtain ⟨_, _, within⟩ := every.of_foldlM (fun _ _ _ taken => taken) ran
  simp [within true] at fails

end Sm4

end RiscvVp
