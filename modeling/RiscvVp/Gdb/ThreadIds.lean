import Mathlib
import RiscvVp.Gdb.Replies

/-!
# Thread ids

The server writes the ids of threads in decimal digits and reads them as
hexadecimal ones; and in the list of threads, what follows an entry is decided by
the place of the hart and not by the entries that are still to come.
-/

namespace RiscvVp

namespace Gdb

open Interaction Parsing Parser

section ThreadIds

variable {ι : Type}

/-- What is written, read back and looked up, is the hart. -/
def Denotes (harts : List ι) (id : List Byte) (hart : ι) : Prop :=
  ∃ thread, gdbThreadId id = .parsed thread [] ∧
    getThreads harts thread.tid = some [hart]

/-! ## Ids -/

theorem gdbThreadId_decimal : ∀ index : Fin 9,
    gdbThreadId (decimal (index + 1)) =
      .parsed ⟨threadUnset, index + 1⟩ [] := by
  decide

/-- An id of one digit reads as it is written. -/
theorem denotes_decimal {harts : List ι} {hart : ι} {index : ℕ}
    (small : index < 9) (here : harts[index]? = some hart) :
    Denotes harts (decimal (index + 1)) hart := by
  refine ⟨_, gdbThreadId_decimal ⟨index, small⟩, ?_⟩
  have positive : ((index : ℤ) + 1) ≠ threadAny := by
    unfold threadAny
    omega
  have single : ((index : ℤ) + 1) ≠ threadAll := by
    unfold threadAll
    omega
  have place : ((index : ℤ) + 1 - 1).toNat = index := by omega
  have first : ¬ (index : ℤ) + 1 < 1 := by omega
  rw [getThreads]
  simp only [positive, single, first, place, here, if_false, Option.map_some]

/-- The tenth id reads as the sixteenth. -/
theorem not_denotes_ten {harts : List ι} {hart : ι}
    (apart : harts[15]? ≠ some hart) : ¬ Denotes harts (decimal 10) hart := by
  rintro ⟨thread, parsed, found⟩
  have read : gdbThreadId (decimal 10) = .parsed ⟨threadUnset, 16⟩ [] := by
    decide
  cases read.symm.trans parsed
  have looked : getThreads harts 16 = harts[15]?.map fun hart => [hart] := rfl
  rw [looked, Option.map_eq_some_iff] at found
  obtain ⟨other, there, same⟩ := found
  cases same
  exact apart there

/-! ## Lists -/

/-- The entries of a list. -/
def entries (list : List Byte) : List (List Byte) :=
  if list = [] then [] else list.splitOn (ascii ',')

variable (targets : Targets ι) (status : ι → CoreExecStatus)

/-- The harts that have not terminated. -/
def live : List ι :=
  targets.harts.filter fun hart => status hart ≠ .terminated

/-- `handle` of surroundings that have no state. -/
def replies (others : ∀ request : Request ι, request.Reply)
    (request : Request ι) (world : Unit) : request.Reply × Unit :=
  (others request, world)

/-- The list of threads is one of exactly the live harts. -/
def ListsThreads : Prop :=
  ∀ others : (request : Request ι) → request.Reply,
    (∀ hart, others (.status hart) = status hart) →
      ∀ stub : Stub, ∃ list later,
        (threadInfo targets stub).run (replies others) () = (.done () later, ()) ∧
          stub.HasSent later (text "m" ++ list) ∧
          List.Forall₂ (Denotes targets.harts) (entries list)
            (live targets status)

/-- A stop reply names the hart that has stopped. -/
def NamesStopped : Prop :=
  ∀ hart ∈ targets.harts, ∀ (reason : StopReason) (stub : Stub), ∃ id later,
    reportStop targets (some (reason, hart)) stub = .ret (.done () later) ∧
      stub.HasSent later (text "T" ++ reason.text ++ text "thread:" ++ id ++
        text ";") ∧
      Denotes targets.harts id hart

variable {targets status}

/-- The list of `threadInfo`, by the statuses. -/
def listed (targets : Targets ι) (status : ι → CoreExecStatus)
    (harts : List ι) : List Byte :=
  listing targets (harts.map fun hart => (hart, status hart))

theorem listed_cons (hart : ι) (rest : List ι) :
    listed targets status (hart :: rest) =
      if status hart = .terminated then listed targets status rest
      else decimal (targets.hartId hart + 1) ++
        (if rest = [] then [] else text ",") ++ listed targets status rest := by
  simp only [listed, List.map_cons, listing, List.map_eq_nil_iff]

theorem run_threadList_cons {others : (request : Request ι) → request.Reply}
    {hart : ι} {current : CoreExecStatus}
    (answer : others (.status hart) = current) (rest : List ι) (stub : Stub) :
    (threadList targets (hart :: rest) stub).run (replies others) () =
      Program.run (replies others)
        ((threadList targets rest >>= fun list =>
          if current = .terminated then pure list
          else pure (decimal (targets.hartId hart + 1) ++
            (if rest = [] then [] else text ",") ++ list)) stub) () := by
  subst answer
  rfl

theorem run_threadList {others : (request : Request ι) → request.Reply}
    (answers : ∀ hart, others (.status hart) = status hart) (harts : List ι)
    (stub : Stub) :
    (threadList targets harts stub).run (replies others) () =
      (.done (listed targets status harts) stub, ()) := by
  induction harts with
  | nil => rfl
  | cons hart rest inductionHypothesis =>
      rw [run_threadList_cons (answers hart), Machine.bind_apply,
        Program.run_bind, inductionHypothesis, Machine.andThen_done,
        listed_cons]
      by_cases ended : status hart = .terminated
      · rw [if_pos ended, if_pos ended]
        rfl
      · rw [if_neg ended, if_neg ended]
        rfl

theorem run_threadInfo {others : (request : Request ι) → request.Reply}
    (answers : ∀ hart, others (.status hart) = status hart) (stub : Stub)
    {serialized : List Byte}
    (written : gdbSerialize .packet
      (some (text "m" ++ listed targets status targets.harts)) =
        some serialized) :
    (threadInfo targets stub).run (replies others) () =
      (.done () (stub.post serialized), ()) := by
  rw [threadInfo, Machine.bind_apply, Program.run_bind, run_threadList answers]
  change (sendPacket (text "m" ++ listed targets status targets.harts)
    stub).run (replies others) () = _
  rw [sendPacket_of_serialized written]
  rfl

theorem decimal_plain : ∀ index : Fin 9,
    decimal (index + 1) ≠ [] ∧ ascii ',' ∉ decimal (index + 1) := by
  decide

/-- A comma after each live hart but the last of all. -/
theorem splitOn_listed {init : List ι} {last : ι}
    (few : ∀ hart ∈ init ++ [last], targets.hartId hart < 9) :
    (listed targets status (init ++ [last])).splitOn (ascii ',') =
      ((init.filter fun hart => status hart ≠ .terminated).map fun hart =>
        decimal (targets.hartId hart + 1)) ++
        [if status last = .terminated then []
          else decimal (targets.hartId last + 1)] := by
  have clean : ∀ hart ∈ init ++ [last],
      ascii ',' ∉ decimal (targets.hartId hart + 1) := fun hart member =>
    (decimal_plain ⟨_, few hart member⟩).2
  clear few
  induction init with
  | nil =>
      by_cases ended : status last = .terminated
      · simp [listed, listing, ended]
      · simpa [listed, listing, ended] using
          List.splitOn_eq_singleton (clean last (by simp))
  | cons hart init inductionHypothesis =>
      have rest := inductionHypothesis fun hart member =>
        clean hart (List.mem_cons_of_mem _ member)
      rw [List.cons_append, listed_cons]
      by_cases ended : status hart = .terminated
      · rw [if_pos ended, rest, List.filter_cons_of_neg (by simp [ended])]
      · have more : init ++ [last] ≠ [] := by simp
        have comma : text "," = [ascii ','] := by decide
        rw [if_neg ended, if_neg more, comma, List.append_assoc,
          List.singleton_append,
          List.splitOn_append_cons_self_of_not_mem (clean hart (by simp)),
          rest, List.filter_cons_of_pos (by simp [ended]), List.map_cons,
          List.cons_append]

theorem listed_eq_nil_iff {harts : List ι}
    (few : ∀ hart ∈ harts, targets.hartId hart < 9) :
    listed targets status harts = [] ↔
      ∀ hart ∈ harts, status hart = .terminated := by
  induction harts with
  | nil => simp [listed, listing]
  | cons hart rest inductionHypothesis =>
      rw [List.forall_mem_cons] at few ⊢
      by_cases ended : status hart = .terminated
      · rw [listed_cons, if_pos ended, inductionHypothesis few.2]
        exact (and_iff_right ended).symm
      · have digits := (decimal_plain ⟨_, few.1⟩).1
        rw [listed_cons, if_neg ended]
        simp [ended, digits]

/-- Two characters for each hart. -/
theorem length_listed_le {harts : List ι}
    (few : ∀ hart ∈ harts, targets.hartId hart < 9) :
    (listed targets status harts).length ≤ 2 * harts.length := by
  have digit : ∀ index : Fin 9, (decimal (index + 1)).length = 1 := by decide
  induction harts with
  | nil => exact Nat.le_refl 0
  | cons hart rest inductionHypothesis =>
      rw [List.forall_mem_cons] at few
      have others := inductionHypothesis few.2
      have first := digit ⟨_, few.1⟩
      have comma : (text ",").length = 1 := by decide
      rw [listed_cons]
      split
      · simp only [List.length_cons]
        omega
      · simp only [List.length_append, List.length_cons, first]
        split
        · simp only [List.length_nil]
          omega
        · omega

theorem serializes_listed {harts : List ι}
    (few : ∀ hart ∈ harts, targets.hartId hart < 9)
    (short : harts.length ≤ 9) :
    Serializes (text "m" ++ listed targets status harts) := by
  have start : Plain (text "m") := by decide
  have digits : Plain (listed targets status harts) := plain_listing targets _
  apply (start.append digits).serializes_of_short
  have list : (listed targets status harts).length ≤ 2 * harts.length :=
    length_listed_le few
  have first : (text "m").length = 1 := by decide
  rw [List.length_append]
  omega

/-- Surroundings in which the harts have their statuses. -/
def reporting (status : ι → CoreExecStatus) :
    (request : Request ι) → request.Reply
  | .registers _ => fun _ => 0
  | .programCounter _ => (0 : BitVec 64)
  | .status hart => status hart
  | .setStatus _ _ => ()
  | .insertBreakpoint _ _ => ()
  | .removeBreakpoint _ _ => ()
  | .v2p _ _ _ => .trap
  | .readDbg _ _ => .assertion
  | .writeDbg _ _ => .assertion
  | .runThreads _ _ => none

theorem listsThreads_iff_denotes
    (fits : Serializes (text "m" ++ listed targets status targets.harts)) :
    ListsThreads targets status ↔
      List.Forall₂ (Denotes targets.harts)
        (entries (listed targets status targets.harts))
        (live targets status) := by
  obtain ⟨serialized, written⟩ := fits
  constructor
  · intro lists
    obtain ⟨list, later, ran, ⟨packet, rewritten, sent⟩, denotes⟩ :=
      lists (reporting status) (fun _ => rfl) Stub.boot
    have answers : ∀ hart, reporting status (.status hart) = status hart :=
      fun _ => rfl
    rw [run_threadInfo answers Stub.boot written] at ran
    cases ran
    cases sent
    have same := gdbSerialize_injective written rewritten
    rwa [List.append_cancel_left same]
  · intro denotes others answers stub
    exact ⟨_, _, run_threadInfo answers stub written, ⟨serialized, written, rfl⟩,
      denotes⟩

/-- The ids are those of the places. -/
theorem denotes_ids
    (places : ∀ index hart, targets.harts[index]? = some hart →
      targets.hartId hart = index)
    (few : targets.harts.length ≤ 9) {harts : List ι}
    (among : ∀ hart ∈ harts, hart ∈ targets.harts) :
    List.Forall₂ (Denotes targets.harts)
      (harts.map fun hart => decimal (targets.hartId hart + 1)) harts := by
  rw [List.forall₂_map_left_iff, List.forall₂_same]
  intro hart member
  obtain ⟨index, bound, here⟩ := List.mem_iff_getElem.mp (among hart member)
  have there : targets.harts[index]? = some hart :=
    List.getElem?_eq_some_iff.mpr ⟨bound, here⟩
  rw [places index hart there]
  exact denotes_decimal (by omega) there

/-- The list ends in a comma when only the last hart has terminated. -/
theorem listsThreads_iff
    (places : ∀ index hart, targets.harts[index]? = some hart →
      targets.hartId hart = index)
    (few : targets.harts.length ≤ 9) :
    ListsThreads targets status ↔
      status (targets.harts.getLast targets.nonempty) ≠ .terminated ∨
        ∀ hart ∈ targets.harts, status hart = .terminated := by
  have small : ∀ hart ∈ targets.harts, targets.hartId hart < 9 := by
    intro hart member
    obtain ⟨index, bound, here⟩ := List.mem_iff_getElem.mp member
    rw [places index hart (List.getElem?_eq_some_iff.mpr ⟨bound, here⟩)]
    omega
  have ids : List.Forall₂ (Denotes targets.harts)
      ((live targets status).map fun hart =>
        decimal (targets.hartId hart + 1)) (live targets status) :=
    denotes_ids places few fun hart member => List.mem_of_mem_filter member
  have shape := List.dropLast_append_getLast targets.nonempty
  have split := @splitOn_listed _ targets status _ _
    (fun hart member => small hart (shape ▸ member))
  have kept : live targets status =
      (targets.harts.dropLast.filter fun hart => status hart ≠ .terminated) ++
        [targets.harts.getLast targets.nonempty].filter fun hart =>
          status hart ≠ .terminated := by
    rw [← List.filter_append, shape, live]
  rw [shape] at split
  rw [listsThreads_iff_denotes (serializes_listed small few), entries]
  by_cases allOver : ∀ hart ∈ targets.harts, status hart = .terminated
  · have none : live targets status = [] := by
      rw [live, List.filter_eq_nil_iff]
      intro hart member
      simp [allOver hart member]
    rw [if_pos ((listed_eq_nil_iff small).mpr allOver), none]
    exact iff_of_true .nil (.inr allOver)
  · rw [if_neg fun empty => allOver ((listed_eq_nil_iff small).mp empty), split]
    by_cases ended :
        status (targets.harts.getLast targets.nonempty) = .terminated
    · rw [if_pos ended, kept, List.filter_cons_of_neg (by simp [ended])]
      constructor
      · intro denotes
        have lengths := denotes.length_eq
        simp at lengths
      · rintro (running | all)
        · exact absurd ended running
        · exact absurd all allOver
    · rw [kept, List.map_append, List.filter_cons_of_pos (by simp [ended])]
        at ids
      rw [if_neg ended, kept, List.filter_cons_of_pos (by simp [ended])]
      exact iff_of_true ids (.inl ended)

theorem stoppedThread_of_small {hart : ι}
    (small : targets.hartId hart + 1 < 2 ^ 31) :
    stoppedThread targets hart = targets.hartId hart + 1 := by
  have word : (targets.hartId hart + 1) % 2 ^ 32 = targets.hartId hart + 1 :=
    Nat.mod_eq_of_lt (by omega)
  rw [stoppedThread, BitVec.toInt_eq_toNat_of_lt, BitVec.toNat_ofNat, word]
  · push_cast
    rfl
  · rw [BitVec.toNat_ofNat, word]
    omega

/-- What is sent of a hart with a small id. -/
theorem hasSent_reportStop {hart : ι} {index : ℕ} (reason : StopReason)
    (id : targets.hartId hart = index) (small : index + 1 < 2 ^ 31)
    (stub : Stub) :
    ∃ later, reportStop targets (some (reason, hart)) stub =
        .ret (.done () later) ∧
      stub.HasSent later (text "T" ++ reason.text ++ text "thread:" ++
        decimal (index + 1) ++ text ";") := by
  have thread : stoppedThread targets hart = (index : ℤ) + 1 := by
    rw [stoppedThread_of_small (by omega), id]
  have positive : (1 : ℤ) ≤ index + 1 := by omega
  have number : ((index : ℤ) + 1).toNat = index + 1 := by omega
  have few : index + 1 < 10 ^ 10 := by omega
  obtain ⟨serialized, written⟩ := serializes_stop reason few
  simp only [reportStop, thread, positive, decide_true, Machine.assert_true,
    number, sendPacket_of_serialized written]
  exact ⟨_, rfl, serialized, written, rfl⟩

theorem namesStopped_iff
    (places : ∀ index hart, targets.harts[index]? = some hart →
      targets.hartId hart = index) :
    NamesStopped targets ↔ targets.harts.length ≤ 9 := by
  constructor
  · intro names
    by_contra many
    have bound : 9 < targets.harts.length := by omega
    have there := List.getElem?_eq_getElem bound
    have first := places 9 _ there
    obtain ⟨id, later, stopped, ⟨packet, written, sent⟩, denotes⟩ :=
      names targets.harts[9] (List.getElem_mem bound) .trap Stub.boot
    obtain ⟨last, reported, packet', rewritten, resent⟩ :=
      hasSent_reportStop .trap first (by omega) Stub.boot
    cases stopped.symm.trans reported
    cases sent.symm.trans resent
    have same := gdbSerialize_injective written rewritten
    simp only [List.append_assoc, List.append_cancel_left_eq,
      List.append_cancel_right_eq] at same
    subst same
    refine not_denotes_ten (fun again => ?_) denotes
    have second := places 15 _ again
    omega
  · intro few hart member reason stub
    obtain ⟨index, bound, here⟩ := List.mem_iff_getElem.mp member
    have there : targets.harts[index]? = some hart :=
      List.getElem?_eq_some_iff.mpr ⟨bound, here⟩
    obtain ⟨later, reported, sent⟩ :=
      hasSent_reportStop reason (places index hart there) (by omega) stub
    exact ⟨_, later, reported, sent, denotes_decimal (by omega) there⟩

/-- The ids agree where they have one digit and the last hart is live, or
none. -/
theorem threadIds_iff
    (places : ∀ index hart, targets.harts[index]? = some hart →
      targets.hartId hart = index) :
    (ListsThreads targets status ∧ NamesStopped targets) ↔
      targets.harts.length ≤ 9 ∧
        (status (targets.harts.getLast targets.nonempty) ≠ .terminated ∨
          ∀ hart ∈ targets.harts, status hart = .terminated) := by
  rw [namesStopped_iff places, and_comm]
  exact and_congr_right fun few => listsThreads_iff places few

end ThreadIds

/-- Two harts. -/
def duo : Targets (Fin 2) where
  harts := [0, 1]
  nonempty := by decide
  hartId hart := hart
  architecture := .rv32
  translates := false

theorem duo_places (index : ℕ) (hart : Fin 2)
    (here : duo.harts[index]? = some hart) : duo.hartId hart = index := by
  match index, here with
  | 0, here =>
      cases here
      rfl
  | 1, here =>
      cases here
      rfl

theorem threadIds_duo :
    ListsThreads duo (fun _ => .runnable) ∧ NamesStopped duo :=
  (threadIds_iff duo_places).mpr ⟨by decide, .inl (by decide)⟩

/-- The second hart has terminated, and the comma after the first is not
followed by an entry. -/
theorem not_threadIds :
    ¬ (ListsThreads duo (fun hart => if hart = 1 then .terminated
        else .runnable) ∧ NamesStopped duo) := by
  rintro ⟨lists, _⟩
  have few : ∀ hart ∈ duo.harts, duo.hartId hart < 9 := by decide
  have denotes := (listsThreads_iff_denotes
    (serializes_listed few (by decide))).mp lists
  have lengths := denotes.length_eq
  revert lengths
  decide +kernel

end Gdb

end RiscvVp
