import Mathlib.Tactic.SplitIfs
import RiscvVp.Sm4.Accelerator

/-!
# An edge in closed form

The two processes of the core touch different signals and variables, so the
evaluation phase is one step of each.  Four delta cycles take the result to a
state that `state_proc` leaves alone.
-/

namespace RiscvVp

namespace Sm4

open Feistel

/-! ## The evaluation phase -/

/-- `KeyExp` at an edge: what `rk_ready`, `i` and `rk` become. -/
def keyStep (now : Signals) (core : Core) : Option (Bool × ℕ × (ℕ → Word)) :=
  if !now.coreRst then some (false, 0, core.rk)
  else if now.keyExpEn then do
    let constant ← element (fun index => ck.getD index 0) 32 core.i
    let rk ← extendArray (load core.rk (initialKeys now.key)) core.i constant true
    return (core.i + 1 = 32 || now.rkReady, core.i + 1, rk)
  else some (now.rkReady, core.i, core.rk)

/-- What `EncDec` leaves: its flags, its output, `j` and `X`. -/
structure Crypted : Type where
  encdataReady : Bool
  decdataReady : Bool
  dataOut : BitVec 128
  j : ℕ
  x : ℕ → Word

/-- The round key of a round, in the order of the mode. -/
def roundKeyAt (mode : Bool) (rk : ℕ → Word) (j : ℕ) : Option Word :=
  if mode then element rk 36 (j + 4)
  else do element rk 36 (← difference 35 j)

/-- `EncDec` at an edge, with the round keys it finds. -/
def cryptStep (now : Signals) (rk : ℕ → Word) (core : Core) : Option Crypted :=
  if !now.coreRst then some ⟨false, false, now.dataOut, 0, core.x⟩
  else if now.encDecEn then do
    let key ← roundKeyAt now.mode rk core.j
    let x ← extendArray (load core.x (ranges now.data)) core.j key false
    let finish := concat ⟨x 35, x 34, x 33, x 32⟩
    let last := decide (core.j + 1 = 32)
    return {
      encdataReady := last && now.mode || now.encdataReady
      decdataReady := last && !now.mode || now.decdataReady
      dataOut := if last then finish else now.dataOut
      j := if last && now.mode then 0 else core.j + 1
      x := x }
  else some ⟨now.encdataReady, now.decdataReady, now.dataOut, core.j, core.x⟩

theorem controlProc_flags (rst : Bool) (socket : Socket) (now : Signals) :
    (controlProc rst socket now).rkReady = now.rkReady ∧
      (controlProc rst socket now).encdataReady = now.encdataReady ∧
      (controlProc rst socket now).decdataReady = now.decdataReady ∧
      (controlProc rst socket now).dataOut = now.dataOut ∧
      (controlProc rst socket now).dataState = now.dataState := by
  simp only [controlProc]
  split_ifs <;> simp

theorem keyExp_eq (now next : Signals) (core : Core)
    (kept : next.rkReady = now.rkReady) :
    keyExp now next core = (keyStep now core).map fun (rkReady, i, rk) =>
      ({ next with rkReady := rkReady }, { core with i := i, rk := rk }) := by
  cases running : now.coreRst with
  | false => simp [keyExp, keyStep, running]
  | true =>
      cases enabled : now.keyExpEn with
      | false => simp [keyExp, keyStep, running, enabled, ← kept]
      | true =>
          simp only [keyExp, keyStep, running, enabled, Bool.not_true,
            Bool.false_eq_true, if_false, if_true]
          cases element (fun index => ck.getD index 0) 32 core.i with
          | none => rfl
          | some constant =>
              simp only [Option.bind_eq_bind, Option.bind_some]
              cases extendArray (load core.rk (initialKeys now.key)) core.i constant
                true with
              | none => rfl
              | some rk =>
                  by_cases last : core.i + 1 = 32
                  · simp [last]
                  · simp [last, ← kept]

theorem encDec_eq (now next : Signals) (core : Core)
    (encdata : next.encdataReady = now.encdataReady)
    (decdata : next.decdataReady = now.decdataReady)
    (out : next.dataOut = now.dataOut) :
    encDec now next core = (cryptStep now core.rk core).map fun crypted =>
      ({ next with
          encdataReady := crypted.encdataReady
          decdataReady := crypted.decdataReady
          dataOut := crypted.dataOut },
        { core with j := crypted.j, x := crypted.x }) := by
  cases running : now.coreRst with
  | false => simp [encDec, cryptStep, running, ← out]
  | true =>
      cases enabled : now.encDecEn with
      | false =>
          simp [encDec, cryptStep, running, enabled, ← encdata, ← decdata, ← out]
      | true =>
          simp only [encDec, cryptStep, running, enabled, Bool.not_true,
            Bool.false_eq_true, if_false, if_true]
          cases mode : now.mode with
          | true =>
              simp only [roundKeyAt, if_true]
              cases element core.rk 36 (core.j + 4) with
              | none => rfl
              | some key =>
                  simp only [Option.bind_eq_bind, Option.bind_some]
                  cases extendArray (load core.x (ranges now.data)) core.j key
                      false with
                  | none => rfl
                  | some x =>
                      by_cases last : core.j + 1 = 32
                      · simp [last, ← decdata]
                      · simp [last, ← encdata, ← decdata, ← out]
          | false =>
              simp only [roundKeyAt, Bool.false_eq_true, if_false]
              cases difference 35 core.j with
              | none => rfl
              | some index =>
                  simp only [Option.bind_eq_bind, Option.bind_some]
                  cases element core.rk 36 index with
                  | none => rfl
                  | some key =>
                      simp only [Option.bind_some]
                      cases extendArray (load core.x (ranges now.data)) core.j
                        key false with
                      | none => rfl
                      | some x =>
                          by_cases last : core.j + 1 = 32
                          · simp [last, ← encdata]
                          · simp [last, ← encdata, ← decdata, ← out]

/-- The signals after the evaluation phase. -/
def evaluated (accelerator : Accelerator) (rkReady : Bool) (crypted : Crypted) :
    Signals :=
  { controlProc accelerator.rst accelerator.socket accelerator.signals with
    rkReady := rkReady
    encdataReady := crypted.encdataReady
    decdataReady := crypted.decdataReady
    dataOut := crypted.dataOut }

theorem evaluate_eq (keyExpFirst : Bool) (accelerator : Accelerator) :
    evaluate keyExpFirst accelerator = (do
      let (rkReady, i, rk) ← keyStep accelerator.signals accelerator.core
      let crypted ← cryptStep accelerator.signals
        (if keyExpFirst then rk else accelerator.core.rk) accelerator.core
      return (evaluated accelerator rkReady crypted,
        ⟨i, crypted.j, rk, crypted.x⟩)) := by
  obtain ⟨rkReady, encdata, decdata, out, _⟩ := controlProc_flags
    accelerator.rst accelerator.socket accelerator.signals
  obtain ⟨rst, socket, now, core⟩ := accelerator
  cases keyExpFirst with
  | true =>
      simp only [evaluate, if_true, keyExp_eq now _ core rkReady]
      cases keyStep now core with
      | none => rfl
      | some keys =>
          obtain ⟨ready, i, rk⟩ := keys
          simp only [Option.map_some, Option.bind_eq_bind, Option.bind_some]
          refine (encDec_eq now
            { controlProc rst socket now with rkReady := ready }
            { core with i := i, rk := rk } encdata decdata out).trans ?_
          change (cryptStep now rk core).map _ = _
          cases cryptStep now rk core <;> rfl
  | false =>
      simp only [evaluate, Bool.false_eq_true, if_false,
        encDec_eq now _ core encdata decdata out]
      cases cryptStep now core.rk core with
      | none => cases keyStep now core <;> rfl
      | some crypted =>
          simp only [Option.map_some, Option.bind_eq_bind, Option.bind_some]
          refine (keyExp_eq now
            { controlProc rst socket now with
              encdataReady := crypted.encdataReady
              decdataReady := crypted.decdataReady
              dataOut := crypted.dataOut }
            { core with j := crypted.j, x := crypted.x } rkReady).trans ?_
          change (keyStep now core).map _ = _
          cases keyStep now core <;> rfl

/-! ## The delta cycles -/

/-- What `state_proc` makes of the signals when it runs. -/
def advance (signals : Signals) : Signals :=
  stateProc signals signals

/-- The state that `state_proc` ends up reporting. -/
def reported (signals : Signals) : Word :=
  if signals.rkReady && signals.encDecEn then
    if signals.mode then
      if signals.encdataReady then 4 else 3
    else if signals.encdataReady then
      if signals.decdataReady then 6 else 5
    else if signals.keyExpEn then 2 else signals.dataState
  else if signals.keyExpEn then
    if signals.rkReady then 2 else 1
  else signals.dataState

/-- The signals once everything has settled. -/
def quiesce (signals : Signals) : Signals :=
  if signals.coreRst then
    { signals with
      keyExpEn := signals.keyExpEn && !signals.rkReady
      encDecEn := signals.encDecEn && !(signals.rkReady &&
        signals.encdataReady && (signals.mode || signals.decdataReady))
      dataState := reported signals }
  else
    { signals with
      rkReady := false
      encdataReady := false
      decdataReady := false
      dataState := 0 }

/-- The variables once everything has settled: a reset clears the counters. -/
def quiesceCore (signals : Signals) (core : Core) : Core :=
  if signals.coreRst then core else { core with i := 0, j := 0 }

/-- A state that nothing changes until the next edge. -/
structure Stable (accelerator : Accelerator) : Prop where
  fixed : advance accelerator.signals = accelerator.signals
  reset : accelerator.signals.coreRst = false →
    accelerator.signals.rkReady = false ∧
      accelerator.signals.encdataReady = false ∧
      accelerator.signals.decdataReady = false ∧
      accelerator.core.i = 0 ∧ accelerator.core.j = 0

theorem advance_advance {signals : Signals} (running : signals.coreRst = true) :
    advance (advance signals) = quiesce signals := by
  obtain ⟨coreRst, keyExpEn, encDecEn, mode, key, data, rkReady, encdataReady,
    decdataReady, dataState, dataOut⟩ := signals
  subst running
  cases keyExpEn <;> cases encDecEn <;> cases mode <;> cases rkReady <;>
    cases encdataReady <;> cases decdataReady <;> rfl

theorem advance_quiesce (signals : Signals) :
    advance (quiesce signals) = quiesce signals := by
  obtain ⟨coreRst, keyExpEn, encDecEn, mode, key, data, rkReady, encdataReady,
    decdataReady, dataState, dataOut⟩ := signals
  cases coreRst <;> cases keyExpEn <;> cases encDecEn <;> cases mode <;>
    cases rkReady <;> cases encdataReady <;> cases decdataReady <;> rfl

theorem quiesce_coreRst (signals : Signals) :
    (quiesce signals).coreRst = signals.coreRst := by
  cases running : signals.coreRst <;> simp [quiesce, running]

theorem watched_coreRst {before after : Signals}
    (same : before.watched = after.watched) : before.coreRst = after.coreRst := by
  simp only [Signals.watched, List.cons.injEq] at same
  exact same.1

theorem advance_of_same {signals : Signals} (running : signals.coreRst = true)
    (same : signals.watched = (advance signals).watched) :
    advance signals = quiesce signals := by
  obtain ⟨coreRst, keyExpEn, encDecEn, mode, key, data, rkReady, encdataReady,
    decdataReady, dataState, dataOut⟩ := signals
  subst running
  have idle : (keyExpEn && rkReady) = false := by
    cases keyExpEn <;> cases rkReady <;>
      simp_all [Signals.watched, advance, stateProc]
  cases keyExpEn <;> cases encDecEn <;> cases mode <;> cases rkReady <;>
    cases encdataReady <;> cases decdataReady <;> first | rfl | cases idle

theorem delta_of_same {before after : Signals} (core : Core)
    (same : before.watched = after.watched) :
    delta before after core = some (after, core) := by
  have held : before.coreRst = after.coreRst := watched_coreRst same
  simp [delta, same, held]

theorem delta_of_running {before after : Signals} (core : Core)
    (changed : before.watched ≠ after.watched) (running : after.coreRst = true) :
    delta before after core = some (advance after, core) := by
  simp [delta, changed, running, advance]

theorem settle_of_same {before after : Signals} (core : Core) (cycles : ℕ)
    (same : before.watched = after.watched) :
    settle cycles before after core = some (after, core) := by
  induction cycles generalizing before with
  | zero => rfl
  | succ cycles inductionHypothesis =>
      simp only [settle, delta_of_same core same, Option.bind_eq_bind,
        Option.bind_some]
      exact inductionHypothesis rfl

theorem settle_of_fixed {before after : Signals} (core : Core) (cycles : ℕ)
    (fixed : advance after = after)
    (held : (before.coreRst && !after.coreRst) = false) :
    settle cycles before after core = some (after, core) := by
  cases cycles with
  | zero => rfl
  | succ cycles =>
      have first : delta before after core = some (after, core) := by
        have still : stateProc after after = after := fixed
        simp [delta, held, still]
      rw [settle, first]
      exact settle_of_same core cycles rfl

theorem advance_coreRst (signals : Signals) :
    (advance signals).coreRst = signals.coreRst := by
  simp only [advance, stateProc]
  split_ifs <;> rfl

/-- Two runs of `state_proc` are all that it takes. -/
theorem settle_of_running {before after : Signals} (core : Core)
    (changed : before.watched ≠ after.watched) (running : after.coreRst = true) :
    settle 4 before after core = some (quiesce after, core) := by
  rw [settle, delta_of_running core changed running]
  simp only [Option.bind_eq_bind, Option.bind_some]
  by_cases same : after.watched = (advance after).watched
  · rw [settle_of_same core 3 same, advance_of_same running same]
  · have runningNext : (advance after).coreRst = true := by
      rw [advance_coreRst, running]
    rw [settle, delta_of_running core same runningNext, advance_advance running]
    simp only [Option.bind_eq_bind, Option.bind_some]
    by_cases last : (advance after).watched = (quiesce after).watched
    · exact settle_of_same core 2 last
    · have runningLast : (quiesce after).coreRst = true := by
        rw [← advance_advance running, advance_coreRst, runningNext]
      rw [settle, delta_of_running core last runningLast, advance_quiesce]
      exact settle_of_same core 1 rfl

theorem settle_of_fallen {before after : Signals} (core : Core)
    (was : before.coreRst = true) (fallen : after.coreRst = false) :
    settle 4 before after core =
      some (quiesce after, { core with i := 0, j := 0 }) := by
  have changed : before.watched ≠ after.watched := by
    intro same
    have held := watched_coreRst same
    rw [was, fallen] at held
    cases held
  have first : delta before after core =
      some (quiesce after, { core with i := 0, j := 0 }) := by
    simp [delta, changed, was, fallen, stateProc, keyExp, encDec, quiesce]
  rw [settle, first]
  simp only [Option.bind_eq_bind, Option.bind_some]
  by_cases same : after.watched = (quiesce after).watched
  · exact settle_of_same _ 3 same
  · have low : (quiesce after).coreRst = false := by
      simp [quiesce, fallen]
    have second : delta after (quiesce after) { core with i := 0, j := 0 } =
        some (quiesce after, { core with i := 0, j := 0 }) := by
      have still : stateProc (quiesce after) (quiesce after) = quiesce after :=
        advance_quiesce after
      simp [delta, same, still, fallen]
    rw [settle, second]
    exact settle_of_same _ 2 rfl

/-! ## The whole edge -/

theorem evaluate_of_low (keyExpFirst : Bool) {accelerator : Accelerator}
    (low : accelerator.signals.coreRst = false) :
    evaluate keyExpFirst accelerator =
      some (evaluated accelerator false
          ⟨false, false, accelerator.signals.dataOut, 0, accelerator.core.x⟩,
        ⟨0, 0, accelerator.core.rk, accelerator.core.x⟩) := by
  rw [evaluate_eq]
  simp [keyStep, cryptStep, low]

theorem evaluate_dataState {keyExpFirst : Bool} {accelerator : Accelerator}
    {next : Signals} {core : Core}
    (evaluates : evaluate keyExpFirst accelerator = some (next, core)) :
    next.dataState = accelerator.signals.dataState := by
  rw [evaluate_eq] at evaluates
  simp only [Option.bind_eq_bind, Option.bind_eq_some_iff, Option.pure_def,
    Option.some.injEq, Prod.mk.injEq] at evaluates
  obtain ⟨keys, _, crypted, _, rfl, _⟩ := evaluates
  exact (controlProc_flags accelerator.rst accelerator.socket
    accelerator.signals).2.2.2.2

/-- What `state_proc` does hangs on what it watches and the state it reported. -/
theorem advance_of_watched {signals other : Signals}
    (fixed : advance other = other) (same : signals.watched = other.watched)
    (state : signals.dataState = other.dataState) :
    advance signals = signals := by
  obtain ⟨coreRst, keyExpEn, encDecEn, mode, key, data, rkReady, encdataReady,
    decdataReady, dataState, dataOut⟩ := signals
  obtain ⟨_, _, _, _, _, _, _, _, _, _, _⟩ := other
  simp only [Signals.watched, List.cons.injEq, and_true] at same
  obtain ⟨rfl, rfl, rfl, rfl, rfl, rfl, rfl⟩ := same
  cases state
  simp only [advance, stateProc] at fixed ⊢
  split_ifs at fixed ⊢ <;> simp_all

theorem quiesce_of_clear {signals : Signals} (low : signals.coreRst = false)
    (keys : signals.rkReady = false) (encdata : signals.encdataReady = false)
    (decdata : signals.decdataReady = false) (state : signals.dataState = 0) :
    quiesce signals = signals := by
  obtain ⟨_, _, _, _, _, _, _, _, _, _, _⟩ := signals
  cases low
  cases keys
  cases encdata
  cases decdata
  cases state
  rfl

theorem Stable.dataState_of_low {accelerator : Accelerator}
    (stable : Stable accelerator) (low : accelerator.signals.coreRst = false) :
    accelerator.signals.dataState = 0 := by
  have fixed := congrArg Signals.dataState stable.fixed
  simp only [advance, stateProc, low, Bool.not_false, if_true] at fixed
  exact fixed.symm

/-- An edge from a stable state. -/
theorem edge_eq (keyExpFirst : Bool) {accelerator : Accelerator}
    (stable : Stable accelerator) :
    edge keyExpFirst accelerator = (evaluate keyExpFirst accelerator).map
      fun (next, core) =>
        { accelerator with
          signals := quiesce next
          core := quiesceCore next core } := by
  rw [edge]
  cases evaluates : evaluate keyExpFirst accelerator with
  | none => rfl
  | some result =>
      obtain ⟨next, core⟩ := result
      suffices settled : settle 4 accelerator.signals next core =
          some (quiesce next, quiesceCore next core) by
        simp [settled]
      cases low : accelerator.signals.coreRst with
      | false =>
          rw [evaluate_of_low keyExpFirst low] at evaluates
          obtain ⟨rfl, rfl⟩ := Prod.mk.inj (Option.some.inj evaluates)
          generalize next_eq : evaluated accelerator false
            ⟨false, false, accelerator.signals.dataOut, 0, accelerator.core.x⟩ =
              next
          cases still : next.coreRst with
          | true =>
              have changed : accelerator.signals.watched ≠ next.watched := by
                intro same
                have held := watched_coreRst same
                rw [low, still] at held
                cases held
              rw [settle_of_running _ changed still, quiesceCore, still, if_pos rfl]
          | false =>
              have quiet : quiesce next = next := by
                subst next_eq
                exact quiesce_of_clear still rfl rfl rfl
                  ((evaluate_dataState
                    (evaluate_of_low keyExpFirst low)).trans
                      (stable.dataState_of_low low))
              have fixed : advance next = next := by
                rw [← quiet, advance_quiesce]
              rw [settle_of_fixed _ 4 fixed (by rw [low, Bool.false_and]), quiet]
              simp [quiesceCore, still]
      | true =>
          cases still : next.coreRst with
          | false => simp [settle_of_fallen core low still, quiesceCore, still]
          | true =>
              have kept : quiesceCore next core = core := by
                rw [quiesceCore, still, if_pos rfl]
              rw [kept]
              by_cases same : accelerator.signals.watched = next.watched
              · have fixed : advance next = next :=
                  advance_of_watched stable.fixed same.symm
                    (evaluate_dataState evaluates)
                have quiet : quiesce next = next := by
                  rw [← advance_advance still, fixed, fixed]
                rw [settle_of_same core 4 same, quiet]
              · exact settle_of_running core same still

theorem stable_initial : Stable Accelerator.initial where
  fixed := rfl
  reset := fun _ => ⟨rfl, rfl, rfl, rfl, rfl⟩

/-- Nothing that happens leaves signals unsettled. -/
theorem stable_step {accelerator later : Accelerator} {event : Event}
    (stable : Stable accelerator)
    (stepped : step accelerator event = some later) : Stable later := by
  cases event with
  | release =>
      cases stepped
      exact ⟨stable.fixed, stable.reset⟩
  | edge keyExpFirst =>
      rw [step, edge_eq keyExpFirst stable] at stepped
      obtain ⟨⟨next, core⟩, _, rfl⟩ := Option.map_eq_some_iff.mp stepped
      refine ⟨advance_quiesce next, ?_⟩
      intro low
      cases still : next.coreRst with
      | true => simp [quiesce, still] at low
      | false => simp [quiesce, quiesceCore, still]
  | begin addr data =>
      simp only [step] at stepped
      split_ifs at stepped <;> cases stepped <;>
        exact ⟨stable.fixed, stable.reset⟩
  | finish =>
      simp only [step] at stepped
      split_ifs at stepped <;> cases stepped <;>
        exact ⟨stable.fixed, stable.reset⟩

end Sm4

end RiscvVp
