import Mathlib
import RiscvVp.Device.Trace

/-!
# Queues that overflow

A queue of bounded capacity that loses its oldest entry when one more is pushed.
What is popped, followed by what is left, is a sublist of what was pushed; it is
all of it exactly if no entry is pushed to a full queue.  As a stack of nested
calls, it forgets the calls that are nested too deep.
-/

namespace RiscvVp

namespace Queueing

open Trace

variable {α : Type} {capacity : ℕ}

/-- Append an entry; of a queue that is too long then, the first is dropped. -/
def push (capacity : ℕ) (queue : List α) (entry : α) : List α :=
  if capacity < (queue ++ [entry]).length then (queue ++ [entry]).tail
  else queue ++ [entry]

theorem push_of_room {queue : List α} (room : queue.length < capacity)
    (entry : α) : push capacity queue entry = queue ++ [entry] := by
  rw [push, if_neg]
  rw [List.length_append, List.length_singleton]
  omega

theorem push_of_full {queue : List α} (full : ¬ queue.length < capacity)
    (entry : α) : push capacity queue entry = (queue ++ [entry]).tail := by
  rw [push, if_pos]
  rw [List.length_append, List.length_singleton]
  omega

/-- What a user of the queue does at a time, with what goes in and comes out. -/
structure Turn (α : Type) where
  pushed : Option α := none
  popped : Option α := none

/-- The queue before and after a turn. -/
inductive Turns (capacity : ℕ) : List α → Turn α → List α → Prop
  | idle (queue : List α) : Turns capacity queue {} queue
  | push (queue : List α) (entry : α) :
      Turns capacity queue { pushed := some entry } (push capacity queue entry)
  | pop (entry : α) (queue : List α) :
      Turns capacity (entry :: queue) { popped := some entry } queue

/-- The queue before and after some turns. -/
inductive Runs (capacity : ℕ) : List α → List (Turn α) → List α → Prop
  | nil (queue : List α) : Runs capacity queue [] queue
  | cons {queue middle last : List α} {turn : Turn α} {turns : List (Turn α)} :
      Turns capacity queue turn middle → Runs capacity middle turns last →
        Runs capacity queue (turn :: turns) last

def pushed (turns : List (Turn α)) : List α :=
  turns.filterMap Turn.pushed

def popped (turns : List (Turn α)) : List α :=
  turns.filterMap Turn.popped

/-- If the turn pushes, the queue has room. -/
def Room (capacity : ℕ) (queue : List α) (turn : Turn α) : Prop :=
  turn.pushed.isSome → queue.length < capacity

theorem pushed_cons (turn : Turn α) (turns : List (Turn α)) :
    pushed (turn :: turns) = turn.pushed.toList ++ pushed turns := by
  cases entry : turn.pushed <;> simp [pushed, entry]

theorem popped_cons (turn : Turn α) (turns : List (Turn α)) :
    popped (turn :: turns) = turn.popped.toList ++ popped turns := by
  cases entry : turn.popped <;> simp [popped, entry]

/-! ## One turn -/

theorem Turns.sublist {queue later : List α} {turn : Turn α}
    (turns : Turns capacity queue turn later) :
    (turn.popped.toList ++ later).Sublist (queue ++ turn.pushed.toList) := by
  cases turns with
  | idle => simp
  | push queue entry =>
      by_cases room : queue.length < capacity
      · rw [push_of_room room]
        exact .refl _
      · rw [push_of_full room]
        exact List.tail_sublist _
  | pop entry queue => simp

/-- Nothing is lost at a turn exactly if there is room. -/
theorem Turns.eq_iff {queue later : List α} {turn : Turn α}
    (turns : Turns capacity queue turn later) :
    turn.popped.toList ++ later = queue ++ turn.pushed.toList ↔
      Room capacity queue turn := by
  cases turns with
  | idle => simp [Room]
  | push queue entry =>
      by_cases room : queue.length < capacity
      · rw [push_of_room room]
        exact iff_of_true rfl fun _ => room
      · rw [push_of_full room]
        refine iff_of_false ?_ fun all => room (all rfl)
        intro same
        have lengths := congrArg List.length same
        simp at lengths
  | pop entry queue => simp [Room]

theorem Turns.length_le {queue later : List α} {turn : Turn α}
    (turns : Turns capacity queue turn later) (within : queue.length ≤ capacity) :
    later.length ≤ capacity := by
  cases turns with
  | idle => exact within
  | push queue entry =>
      by_cases room : queue.length < capacity
      · rw [push_of_room room, List.length_append, List.length_singleton]
        omega
      · rw [push_of_full room, List.length_tail, List.length_append,
          List.length_singleton]
        omega
  | pop entry queue => exact (Nat.le_succ _).trans within

/-- What a turn does decides the queue after it. -/
theorem Turns.unique {queue later other : List α} {turn : Turn α}
    (turns : Turns capacity queue turn later)
    (again : Turns capacity queue turn other) : other = later := by
  cases turns <;> cases again <;> rfl

/-! ## Runs -/

theorem Runs.sublist {queue last : List α} {turns : List (Turn α)}
    (runs : Runs capacity queue turns last) :
    (popped turns ++ last).Sublist (queue ++ pushed turns) := by
  induction runs with
  | nil queue => simp [popped, pushed]
  | @cons queue middle last turn turns first _ inductionHypothesis =>
      rw [popped_cons, pushed_cons, List.append_assoc]
      have front := inductionHypothesis.append_left turn.popped.toList
      rw [← List.append_assoc _ middle] at front
      have back := first.sublist.append_right (pushed turns)
      rw [List.append_assoc queue] at back
      exact front.trans back

/-- Nothing is lost in a run exactly if every push has room. -/
theorem Runs.eq_iff {queue last : List α} {turns : List (Turn α)}
    (runs : Runs capacity queue turns last) :
    popped turns ++ last = queue ++ pushed turns ↔
      EveryEvent (Turns capacity) (Room capacity) turns queue := by
  induction runs with
  | nil queue => simp [popped, pushed, EveryEvent]
  | @cons queue middle last turn turns first rest inductionHypothesis =>
      have later : (∀ later, Turns capacity queue turn later →
          EveryEvent (Turns capacity) (Room capacity) turns later) ↔
          EveryEvent (Turns capacity) (Room capacity) turns middle :=
        ⟨fun every => every middle first,
          fun every later turned => first.unique turned ▸ every⟩
      rw [EveryEvent, later, ← inductionHypothesis, ← first.eq_iff]
      rw [popped_cons, pushed_cons, List.append_assoc, ← List.append_assoc queue]
      constructor
      · intro same
        -- Each of the two parts can only lose entries, so neither does.
        have counted := congrArg List.length same
        have front := first.sublist.length_le
        have back := rest.sublist.length_le
        simp only [List.length_append] at counted front back
        have kept := first.sublist.eq_of_length (by
          simp only [List.length_append]
          omega)
        have others := rest.sublist.eq_of_length (by
          simp only [List.length_append]
          omega)
        exact ⟨kept, others⟩
      · rintro ⟨kept, others⟩
        rw [others, ← List.append_assoc, kept]

/-- Every push has room if the queue holds everything that is pushed. -/
theorem Runs.room_of_length {queue last : List α} {turns : List (Turn α)}
    (runs : Runs capacity queue turns last)
    (few : queue.length + (pushed turns).length ≤ capacity) :
    EveryEvent (Turns capacity) (Room capacity) turns queue := by
  induction runs with
  | nil queue => trivial
  | @cons queue middle last turn turns first _ inductionHypothesis =>
      have grown := first.sublist.length_le
      rw [pushed_cons] at few
      simp only [List.length_append] at grown few
      refine ⟨fun pushes => ?_, fun later turned => ?_⟩
      · obtain ⟨entry, isEntry⟩ := Option.isSome_iff_exists.1 pushes
        rw [isEntry, Option.toList_some, List.length_singleton] at few
        omega
      · rw [first.unique turned]
        exact inductionHypothesis (by omega)

/-! ## Nested calls -/

/-- Calls one after the other, each with the calls that it makes. -/
inductive Calls (α : Type) : Type
  | nil
  | call (entry : α) (inside after : Calls α)

namespace Calls

/-- How deep the calls are nested. -/
def depth : Calls α → ℕ
  | nil => 0
  | call _ inside after => max (inside.depth + 1) after.depth

/-- The number of the calls that make calls as deep as there is room. -/
def deep (capacity : ℕ) : Calls α → ℕ
  | nil => 0
  | call _ inside after =>
      (if capacity ≤ inside.depth then 1 else 0) + inside.deep capacity +
        after.deep capacity

/-- The queue after the calls, if each pushes its entry and its return takes the
last one. -/
def left (capacity : ℕ) : Calls α → List α → List α
  | nil, queue => queue
  | call entry inside after, queue =>
      after.left capacity
        (inside.left capacity (push capacity queue entry)).dropLast

/-- The number of the returns that do not find the entry of their call. -/
def missed [DecidableEq α] (capacity : ℕ) : Calls α → List α → ℕ
  | nil, _ => 0
  | call entry inside after, queue =>
      (if (inside.left capacity (push capacity queue entry)).getLast? =
        some entry then 0 else 1) +
        inside.missed capacity (push capacity queue entry) +
          after.missed capacity
            (inside.left capacity (push capacity queue entry)).dropLast

end Calls

theorem reverse_push {queue : List α} (within : queue.length ≤ capacity)
    (entry : α) : (push capacity queue entry).reverse =
      (entry :: queue.reverse).take capacity := by
  by_cases room : queue.length < capacity
  · rw [push_of_room room, List.reverse_append, List.take_of_length_le]
    · rfl
    · rw [List.length_cons, List.length_reverse]
      exact room
  · have full : queue.length = capacity := by omega
    rw [push_of_full room, ← List.dropLast_reverse, List.reverse_append,
      List.dropLast_eq_take]
    simp [full]

namespace Calls

/-- Of the queue, the calls leave the end for which there was room above them. -/
theorem reverse_left {calls : Calls α} {queue : List α}
    (within : queue.length ≤ capacity) :
    (calls.left capacity queue).reverse =
      queue.reverse.take (capacity - calls.depth) := by
  induction calls generalizing queue with
  | nil =>
      rw [left, depth, Nat.sub_zero, List.take_of_length_le]
      rwa [List.length_reverse]
  | call entry inside after insideHypothesis afterHypothesis =>
      have pushed : (push capacity queue entry).length ≤ capacity :=
        (Turns.push queue entry).length_le within
      have returned := insideHypothesis pushed
      rw [reverse_push within, List.take_take] at returned
      have few : (inside.left capacity
          (push capacity queue entry)).dropLast.length ≤ capacity := by
        have lengths := congrArg List.length returned
        rw [List.length_reverse, List.length_take] at lengths
        rw [List.length_dropLast]
        omega
      rw [left, afterHypothesis few, ← List.tail_reverse, returned,
        List.tail_take_eq_take_tail, List.tail_cons, List.take_take, depth]
      congr 1
      omega

theorem getLast?_left (inside : Calls α) {queue : List α} (entry : α)
    (within : queue.length ≤ capacity) :
    (inside.left capacity (push capacity queue entry)).getLast? =
      if capacity ≤ inside.depth then none else some entry := by
  have pushed : (push capacity queue entry).length ≤ capacity :=
    (Turns.push queue entry).length_le within
  rw [List.getLast?_eq_head?_reverse, reverse_left pushed, reverse_push within,
    List.take_take, List.head?_take]
  split <;> split <;> first | rfl | omega

theorem length_left_le {calls : Calls α} {queue : List α}
    (within : queue.length ≤ capacity) :
    (calls.left capacity queue).length ≤ capacity := by
  rw [← List.length_reverse, reverse_left within, List.length_take]
  omega

/-- The returns that miss the entry are those of the calls that are nested too
deep. -/
theorem missed_eq_deep [DecidableEq α] {calls : Calls α} {queue : List α}
    (within : queue.length ≤ capacity) :
    calls.missed capacity queue = calls.deep capacity := by
  induction calls generalizing queue with
  | nil => rfl
  | call entry inside after insideHypothesis afterHypothesis =>
      have pushed : (push capacity queue entry).length ≤ capacity :=
        (Turns.push queue entry).length_le within
      have returned : (inside.left capacity
          (push capacity queue entry)).dropLast.length ≤ capacity := by
        rw [List.length_dropLast]
        exact (Nat.sub_le _ _).trans (length_left_le pushed)
      rw [missed, deep, insideHypothesis pushed, afterHypothesis returned,
        getLast?_left inside entry within]
      split <;> simp

end Calls

end Queueing

end RiscvVp
