import Mathlib
import RiscvVp.Gdb.AllStop

/-!
# Steps of the server

What the server does from one wait to the next leaves the points of the harts
alone.  It wakes the harts it runs, tells those to stop that have not stopped,
restores their statuses and clears their breakpoints, and each of these keeps
the invariant of the all-stop protocol if it is orderly.
-/

namespace RiscvVp

namespace Gdb

open Cooperative

namespace Session

variable {ι : Type} {session later : Session ι} {hart : ι}

/-- A status that keeps to `Terminated` and off it keeps what a hart that has
settled says. -/
theorem coherent_setStatuses {status : ι → CoreExecStatus}
    {server : Serving ι} (coherent : session.Coherent hart)
    (settled : session.Settled hart)
    (terminates : status hart = .terminated ↔
      session.status hart = .terminated) :
    Coherent { session with status := status, server := server } hart := by
  unfold Coherent at coherent ⊢
  dsimp only
  rcases settled with waits | exited
  · rw [waits.1] at coherent ⊢
    exact ⟨coherent.1, mt terminates.1 coherent.2⟩
  · rw [exited] at coherent ⊢
    exact ⟨coherent.1, terminates.2 coherent.2⟩

/-- A hart that has not stopped can be told to. -/
theorem mark_coherent (coherent : session.Coherent hart)
    (runs : ¬ session.Settled hart) (point : later.point hart = session.point hart)
    (phase : later.kernel.phase (.runner hart) =
      session.kernel.phase (.runner hart))
    (marked : later.status hart = .hitBreakpoint) : later.Coherent hart := by
  unfold Coherent at coherent ⊢
  rw [point, phase, marked]
  cases place : session.point hart with
  | parked =>
      rw [place] at coherent
      exact ⟨coherent.1, nofun⟩
  | stopping =>
      rw [place] at coherent
      exact ⟨coherent.1, nofun⟩
  | exited => exact absurd (.inr place) runs
  | stepping single => rwa [place] at coherent
  | executing single => rwa [place] at coherent
  | updating single => rwa [place] at coherent
  | stepped single => rwa [place] at coherent

theorem Invariant.gather (invariant : session.Invariant) {loop : Loop ι}
    {hartsrun : List ι} (gathering : session.server = .gathering loop hartsrun)
    (ready : session.kernel.phase .server = .ready) :
    Invariant { session with
      server := .inspecting loop hartsrun [] hartsrun } := by
  have serves := invariant.serves
  rw [gathering] at serves
  obtain ⟨confined, untouched, stopped, _⟩ := serves
  exact ⟨invariant.consistent, invariant.coherent, confined, untouched,
    stopped, List.Subset.refl _, nofun, ready⟩

variable [DecidableEq ι]

theorem sameHarts_suspend (phase : Phase (Event ι)) (server : Serving ι)
    (replies : List (Reply ι)) :
    session.SameHarts { session with
      kernel := session.kernel.suspend .server phase
      server := server
      replies := replies } where
  status := rfl
  point := rfl
  phase _ := Kernel.phase_suspend_of_ne (by simp) _

/-- The server answers and waits for the next packet. -/
theorem Invariant.listen (invariant : session.Invariant)
    (confined : session.Confined []) (untouched : session.Untouched [])
    (message : Reply ι) : (session.reply message).listen.Invariant := by
  have same : session.SameHarts (session.reply message).listen :=
    sameHarts_suspend ..
  exact {
    consistent := Kernel.consistent_suspend _ _
    coherent := same.coherent invariant.coherent
    serves := ⟨same.confined confined, same.untouched untouched,
      Kernel.phase_suspend_self ..⟩ }

theorem Invariant.act (invariant : session.Invariant) {loop : Loop ι}
    (acting : session.server = .acting loop) (harts : List ι) :
    (session.act harts loop).Invariant := by
  have serves := invariant.serves
  rw [acting] at serves
  obtain ⟨confined, untouched, ready⟩ := serves
  unfold Session.act
  split
  next =>
    split
    next => exact ⟨invariant.consistent, invariant.coherent, ready⟩
    next => exact invariant.listen confined untouched _
  next =>
    split
    next => exact ⟨invariant.consistent, invariant.coherent, ready⟩
    next =>
      split
      next => exact invariant.listen confined untouched _
      next =>
        exact ⟨invariant.consistent, invariant.coherent, confined, untouched,
          ready⟩

/-- A hart that is run is woken, if it waits for its next run. -/
theorem launch_woken {hartsrun : List ι} (member : hart ∈ hartsrun)
    (waits : session.Waits hart) :
    (launch hartsrun session.kernel).phase (.runner hart) = .ready := by
  rw [launch, Kernel.phase_suspend_of_ne (by simp), Kernel.phase_notify,
    waits.2]
  exact Phase.notified_waiting (List.mem_map_of_mem member)
    (List.mem_singleton_self _)

/-- The others hear nothing. -/
theorem launch_silent {hartsrun : List ι} (coherent : session.Coherent hart)
    (out : hart ∈ hartsrun → session.point hart = .exited) :
    (launch hartsrun session.kernel).phase (.runner hart) =
      session.kernel.phase (.runner hart) := by
  rw [launch, Kernel.phase_suspend_of_ne (by simp), Kernel.phase_notify]
  apply Phase.notified_eq_self
  intro awaited waiting event notified
  obtain ⟨rfl, waits⟩ := coherent.waits waiting
  rw [List.mem_singleton]
  rintro rfl
  obtain ⟨other, member, same⟩ := List.mem_map.1 notified
  have exited := out (Event.run.inj same ▸ member)
  rw [waits.1] at exited
  cases exited

theorem Invariant.invoke (invariant : session.Invariant) {loop : Loop ι}
    {hartsrun : List ι} {single : Bool}
    (invoking : session.server = .invoking loop hartsrun single)
    (orderly : session.Orderly .serve) :
    (session.invoke loop hartsrun single).Invariant := by
  have serves := invariant.serves
  rw [invoking] at serves
  obtain ⟨confined, untouched, ready⟩ := serves
  rw [Orderly, invoking] at orderly
  have waits : ∀ hart, session.point hart ≠ .exited → session.Waits hart :=
    fun hart present =>
      (confined hart List.not_mem_nil).resolve_right present
  unfold Session.invoke
  split
  next empty =>
    subst empty
    exact ⟨invariant.consistent, invariant.coherent, confined, untouched, ready⟩
  next nonempty =>
    refine ⟨Kernel.consistent_suspend _ _, fun hart => ?_, ?_, ?_, ?_, ?_⟩
    · have coherent := invariant.coherent hart
      by_cases running : hart ∈ hartsrun ∧ session.point hart ≠ .exited
      · obtain ⟨member, present⟩ := running
        unfold Coherent at coherent ⊢
        rw [(waits hart present).1] at coherent ⊢
        exact ⟨.inr (launch_woken member (waits hart present)), coherent.2⟩
      · have out : hart ∈ hartsrun → session.point hart = .exited :=
          fun member => by_contra fun present => running ⟨member, present⟩
        apply (coherent_congr session ?_ ?_ ?_).2 coherent
        · rfl
        · exact launch_silent coherent out
        · rfl
    · intro hart outside
      have silent := launch_silent (invariant.coherent hart)
        fun member => absurd member outside
      apply (settled_congr session ?_ ?_).2 (confined hart List.not_mem_nil)
      · rfl
      · exact silent
    · exact fun hart _ => untouched hart List.not_mem_nil
    · intro hart member settled
      by_cases exited : session.point hart = .exited
      · have coherent := invariant.coherent hart
        rw [Coherent, exited] at coherent
        change session.status hart ≠ .runnable
        rw [coherent.2]
        intro same
        cases same
      · have awake := launch_woken member (waits hart exited)
        rcases settled with still | gone
        · rw [still.2] at awake
          cases awake
        · exact absurd gone exited
    · obtain ⟨hart, member, present⟩ := orderly nonempty
      have awake := launch_woken member (waits hart present)
      refine .inr ⟨Kernel.phase_suspend_self .., hart, member, ?_⟩
      rintro (still | gone)
      · rw [still.2] at awake
        cases awake
      · exact present gone

/-! ### Inspection -/

/-- A hart whose status shows that it has stopped is passed over. -/
theorem Invariant.pass (invariant : session.Invariant) {loop : Loop ι}
    {hartsrun rest : List ι} {origStatus : List (ι × CoreExecStatus)}
    (inspecting : session.server =
      .inspecting loop hartsrun origStatus (hart :: rest))
    (settled : session.Settled hart) :
    Invariant { session with
      server := .inspecting loop hartsrun
        (origStatus ++ [(hart, session.status hart)]) rest } := by
  have serves := invariant.serves
  rw [inspecting] at serves
  obtain ⟨confined, untouched, stopped, subset, recorded, ready⟩ := serves
  refine ⟨invariant.consistent, invariant.coherent, ?_, untouched, ?_, ?_, ?_,
    ready⟩
  · intro other outside
    by_cases same : other = hart
    · rwa [same]
    · exact confined other (by simp [same, outside])
  · exact fun other among => stopped other (List.mem_cons_of_mem _ among)
  · exact fun other among => subset (List.mem_cons_of_mem _ among)
  · intro entry among
    rcases List.mem_append.1 among with earlier | last
    · exact recorded entry earlier
    · obtain rfl := List.mem_singleton.1 last
      exact ⟨subset (List.mem_cons_self ..), .inr settled, Iff.rfl⟩

/-- A hart that runs is told to stop. -/
theorem Invariant.mark (invariant : session.Invariant) {loop : Loop ι}
    {hartsrun rest : List ι} {origStatus : List (ι × CoreExecStatus)}
    (inspecting : session.server =
      .inspecting loop hartsrun origStatus (hart :: rest))
    (runs : session.status hart = .runnable) :
    Invariant { session with
      kernel := session.kernel.suspend .server (.waiting [.stop hart])
      status := Function.update session.status hart .hitBreakpoint
      server := .awaiting loop hartsrun
        (origStatus ++ [(hart, session.status hart)]) hart rest } := by
  have serves := invariant.serves
  rw [inspecting] at serves
  obtain ⟨confined, untouched, stopped, subset, recorded, ready⟩ := serves
  have unsettled : ¬ session.Settled hart :=
    fun settled => stopped hart (List.mem_cons_self ..) settled runs
  have others : ∀ other, other ≠ hart →
      Function.update session.status hart .hitBreakpoint other =
        session.status other :=
    fun other different => Function.update_of_ne different ..
  have own : Function.update session.status hart .hitBreakpoint hart =
      CoreExecStatus.hitBreakpoint :=
    Function.update_self ..
  have phase : ∀ other, (session.kernel.suspend .server
      (.waiting [.stop hart])).phase (.runner other) =
        session.kernel.phase (.runner other) :=
    fun other => Kernel.phase_suspend_of_ne (by simp) _
  refine ⟨Kernel.consistent_suspend _ _, fun other => ?_, ?_, ?_, ?_, subset,
    ?_, own, ?_⟩
  · by_cases same : other = hart
    · subst same
      exact mark_coherent (invariant.coherent other) unsettled rfl
        (phase other) own
    · apply (coherent_congr session ?_ ?_ ?_).2 (invariant.coherent other)
      · rfl
      · exact phase other
      · exact others other same
  · intro other outside
    apply (settled_congr session ?_ ?_).2 (confined other outside)
    · rfl
    · exact phase other
  · intro other outside
    have different : other ≠ hart := by
      rintro rfl
      exact outside (subset (List.mem_cons_self ..))
    exact (others other different).trans_ne (untouched other outside)
  · intro other among settled
    by_cases same : other = hart
    · rw [same]
      exact own.trans_ne nofun
    · apply (others other same).trans_ne
      apply stopped other (List.mem_cons_of_mem _ among)
      exact (settled_congr session rfl (phase other).symm).2 settled
  · intro entry among
    rcases List.mem_append.1 among with earlier | last
    · obtain ⟨member, settles, terminates⟩ := recorded entry earlier
      have settled : session.Settled entry.1 :=
        settles.resolve_left List.not_mem_nil
      have different : entry.1 ≠ hart := fun same => unsettled (same ▸ settled)
      refine ⟨member, .inr ?_, ?_⟩
      · apply (settled_congr session ?_ ?_).2 settled
        · rfl
        · exact phase entry.1
      · change _ ↔ Function.update session.status hart .hitBreakpoint
          entry.1 = .terminated
        rw [others entry.1 different]
        exact terminates
    · obtain rfl := List.mem_singleton.1 last
      refine ⟨subset (List.mem_cons_self ..),
        .inl (List.mem_singleton_self _), ?_⟩
      change session.status hart = .terminated ↔
        Function.update session.status hart .hitBreakpoint hart = .terminated
      rw [own, runs]
      simp
  · refine .inr ⟨Kernel.phase_suspend_self .., fun settled => unsettled ?_⟩
    apply (settled_congr _ ?_ ?_).1 settled
    · rfl
    · exact phase hart

theorem Invariant.inspect (invariant : session.Invariant) {loop : Loop ι}
    {hartsrun rest : List ι} {origStatus : List (ι × CoreExecStatus)}
    (inspecting : session.server =
      .inspecting loop hartsrun origStatus (hart :: rest))
    (orderly : session.Orderly .serve) :
    (session.inspect loop hartsrun origStatus hart rest).Invariant := by
  rw [Orderly, inspecting] at orderly
  unfold Session.inspect
  dsimp only
  split
  next shown => exact invariant.pass inspecting (orderly shown)
  next notShown => exact invariant.mark inspecting (not_not.1 notShown)

/-- The hart that was awaited has stopped. -/
theorem Invariant.await (invariant : session.Invariant) {loop : Loop ι}
    {hartsrun rest : List ι} {origStatus : List (ι × CoreExecStatus)}
    (awaiting : session.server =
      .awaiting loop hartsrun origStatus hart rest)
    (ready : session.kernel.phase .server = .ready) :
    Invariant { session with
      server := .inspecting loop hartsrun origStatus rest } := by
  have serves := invariant.serves
  rw [awaiting] at serves
  obtain ⟨confined, untouched, stopped, subset, recorded, _, server⟩ := serves
  have settled : session.Settled hart := by
    rcases server with ⟨_, settled⟩ | ⟨waiting, _⟩
    · exact settled
    · rw [ready] at waiting
      cases waiting
  refine ⟨invariant.consistent, invariant.coherent, ?_, untouched, stopped,
    fun other among => subset (List.mem_cons_of_mem _ among), ?_, ready⟩
  · intro other outside
    by_cases same : other = hart
    · rwa [same]
    · exact confined other (by simp [same, outside])
  · intro entry among
    obtain ⟨member, settles, terminates⟩ := recorded entry among
    refine ⟨member, .inr ?_, terminates⟩
    rcases settles with awaited | settles
    · rwa [List.mem_singleton.1 awaited]
    · exact settles

/-! ### Restoring and reporting -/

/-- A status is restored, or stays if none is to be restored. -/
theorem restored_cases (origStatus : List (ι × CoreExecStatus))
    (status : ι → CoreExecStatus) (hart : ι) :
    restored origStatus status hart = status hart ∨
      (hart, restored origStatus status hart) ∈ origStatus := by
  induction origStatus generalizing status with
  | nil => exact .inl rfl
  | cons entry others inductionHypothesis =>
      change restored others (Function.update status entry.1 entry.2) hart =
          _ ∨
        (hart, restored others (Function.update status entry.1 entry.2) hart) ∈
          _
      rcases inductionHypothesis (Function.update status entry.1 entry.2) with
        stays | among
      · by_cases same : hart = entry.1
        · subst same
          rw [stays, Function.update_self]
          exact .inr (List.mem_cons_self ..)
        · exact .inl (stays.trans (Function.update_of_ne same ..))
      · exact .inr (List.mem_cons_of_mem _ among)

/-- What `vCont` leaves of the statuses. -/
theorem report_status (hartsrun : List ι) (stopped : Option (StopReason × ι))
    (status : ι → CoreExecStatus) (hart : ι) :
    (report hartsrun stopped status).2 hart =
      if hart ∈ hartsrun ∧ status hart = .hitBreakpoint then .runnable
      else status hart := by
  induction hartsrun generalizing stopped status with
  | nil => simp [report]
  | cons first others inductionHypothesis =>
      unfold report at inductionHypothesis ⊢
      rw [List.foldl_cons]
      cases shown : status first with
      | hitBreakpoint =>
          simp only [shown]
          rw [inductionHypothesis]
          by_cases same : hart = first
          · subst same
            simp [shown]
          · simp [same]
      | runnable =>
          simp only [shown]
          rw [inductionHypothesis]
          by_cases same : hart = first
          · subst same
            simp [shown]
          · simp [same]
      | terminated =>
          simp only [shown]
          rw [inductionHypothesis]
          by_cases same : hart = first
          · subst same
            simp [shown]
          · simp [same]

theorem Invariant.restore (invariant : session.Invariant) {loop : Loop ι}
    {hartsrun : List ι} {origStatus : List (ι × CoreExecStatus)}
    (inspecting : session.server =
      .inspecting loop hartsrun origStatus []) :
    Invariant { session with
      status := restored origStatus session.status
      server := .returned loop hartsrun } := by
  have serves := invariant.serves
  rw [inspecting] at serves
  obtain ⟨confined, untouched, _, _, recorded, ready⟩ := serves
  refine ⟨invariant.consistent, fun hart => ?_, confined, ?_, ready⟩
  · apply coherent_setStatuses (invariant.coherent hart)
      (confined hart List.not_mem_nil)
    rcases restored_cases origStatus session.status hart with stays | among
    · rw [stays]
    · exact (recorded _ among).2.2
  · intro hart outside
    rcases restored_cases origStatus session.status hart with stays | among
    · exact stays.trans_ne (untouched hart outside)
    · exact absurd (recorded _ among).1 outside

theorem Invariant.conclude (invariant : session.Invariant) {loop : Loop ι}
    {hartsrun : List ι} (returned : session.server = .returned loop hartsrun)
    (harts : List ι) : (session.conclude harts loop hartsrun).Invariant := by
  have serves := invariant.serves
  rw [returned] at serves
  obtain ⟨confined, untouched, ready⟩ := serves
  refine ⟨invariant.consistent, fun hart => ?_, confined, ?_, ready⟩
  · apply coherent_setStatuses (invariant.coherent hart)
      (confined hart List.not_mem_nil)
    rw [report_status]
    split
    next reported => simp [reported.2]
    next => exact Iff.rfl
  · intro hart _
    change (report hartsrun loop.stopped session.status).2 hart ≠ _
    rw [report_status]
    split
    next => exact nofun
    next unreported =>
      intro shown
      have outside : hart ∉ hartsrun :=
        fun member => unreported ⟨member, shown⟩
      exact untouched hart outside shown

end Session

end Gdb

end RiscvVp
