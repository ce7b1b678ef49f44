import Mathlib.Data.Finset.Card
import Mathlib.Data.List.Nodup

/-!
# Least recently used replacement

A set of a cache is the list of the tags it holds, the most recent first.  Keys
are distributed over the sets.  A cache whose sets start filled with copies of
one tag is compared with one that starts empty: they miss alike exactly when
that tag is fetched only from sets that are full.
-/

namespace RiscvVp

namespace Caching

universe u v w

variable {α : Type u} [DecidableEq α]

/-- The tag becomes the most recent, and the least recent makes room for it. -/
def touch (ways : ℕ) (recent : List α) (tag : α) : List α :=
  (tag :: recent.erase tag).take ways

section Set

variable {ways : ℕ} {recent filled tags : List α} {tag : α}

theorem touch_of_mem (bounded : recent.length ≤ ways) (member : tag ∈ recent) :
    touch ways recent tag = tag :: recent.erase tag := by
  apply List.take_of_length_le
  rw [List.length_cons, List.length_erase_of_mem member]
  have positive := List.length_pos_of_mem member
  omega

theorem touch_of_not_mem (absent : tag ∉ recent) :
    touch ways recent tag = (tag :: recent).take ways := by
  rw [touch, List.erase_of_not_mem absent]

/-- Tags can be renamed. -/
theorem map_touch {β : Type v} [DecidableEq β] {rename : α → β}
    (injective : Function.Injective rename) (recent : List α) (tag : α) :
    (touch ways recent tag).map rename =
      touch ways (recent.map rename) (rename tag) := by
  rw [touch, touch, List.map_take, List.map_cons, List.map_erase injective]

/-- What a set that started empty holds after some tags were fetched. -/
structure Holds (ways : ℕ) (recent tags : List α) : Prop where
  nodup : recent.Nodup
  fetched : recent ⊆ tags
  bounded : recent.length ≤ ways
  /-- Nothing makes room before the set is full. -/
  keeps : recent.length < ways → tags ⊆ recent

omit [DecidableEq α] in
theorem holds_nil (ways : ℕ) : Holds ways ([] : List α) [] where
  nodup := List.nodup_nil
  fetched := List.Subset.refl _
  bounded := Nat.zero_le _
  keeps _ := List.Subset.refl _

theorem Holds.touch (holds : Holds ways recent tags) (tag : α) :
    Holds ways (touch ways recent tag) (tags ++ [tag]) := by
  by_cases member : tag ∈ recent
  · have touched := touch_of_mem holds.bounded member
    have same : (tag :: recent.erase tag).Perm recent :=
      (List.perm_cons_erase member).symm
    rw [touched]
    refine ⟨same.nodup_iff.2 holds.nodup, fun held inside => ?_,
      same.length_eq.trans_le holds.bounded, fun room held inside => ?_⟩
    · exact List.mem_append_left _ (holds.fetched (same.subset inside))
    · rw [same.length_eq] at room
      rcases List.mem_append.1 inside with earlier | last
      · exact same.symm.subset (holds.keeps room earlier)
      · exact List.mem_singleton.1 last ▸ List.mem_cons_self
  · rw [touch_of_not_mem member]
    refine ⟨?_, ?_, List.length_take_le _ _, fun room => ?_⟩
    · exact (List.nodup_cons.2 ⟨member, holds.nodup⟩).sublist
        (List.take_sublist _ _)
    · intro held inside
      rcases List.mem_cons.1 (List.mem_of_mem_take inside) with rfl | earlier
      · exact List.mem_append_right _ (List.mem_singleton_self _)
      · exact List.mem_append_left _ (holds.fetched earlier)
    · rw [List.length_take, List.length_cons] at room
      have all : (tag :: recent).take ways = tag :: recent :=
        List.take_of_length_le (by rw [List.length_cons]; omega)
      rw [all]
      intro held inside
      rcases List.mem_append.1 inside with earlier | last
      · exact List.mem_cons_of_mem _ (holds.keeps (by omega) earlier)
      · exact List.mem_singleton.1 last ▸ List.mem_cons_self

/-- A set is full when as many distinct tags were fetched. -/
theorem Holds.full_iff (holds : Holds ways recent tags) :
    recent.length = ways ↔ ways ≤ tags.toFinset.card := by
  have distinct : recent.toFinset.card = recent.length :=
    List.toFinset_card_of_nodup holds.nodup
  constructor
  · rintro rfl
    rw [← distinct]
    exact Finset.card_le_card fun held inside =>
      List.mem_toFinset.2 (holds.fetched (List.mem_toFinset.1 inside))
  · intro many
    by_contra notFull
    have room : recent.length < ways :=
      lt_of_le_of_ne holds.bounded notFull
    have few : tags.toFinset.card ≤ recent.toFinset.card :=
      Finset.card_le_card fun held inside =>
        List.mem_toFinset.2 (holds.keeps room (List.mem_toFinset.1 inside))
    omega

/-- The set holds the same tags, with copies of `dummy` behind them. -/
structure Padded (ways : ℕ) (dummy : α) (filled recent : List α) : Prop where
  padded : filled = recent ++ List.replicate (ways - recent.length) dummy
  absent : recent.length < ways → dummy ∉ recent

omit [DecidableEq α] in
theorem padded_nil (ways : ℕ) (dummy : α) :
    Padded ways dummy (List.replicate ways dummy) [] :=
  ⟨rfl, fun _ => List.not_mem_nil⟩

/-- The padded set makes no difference for other tags, and none at all once the
set is full. -/
theorem Padded.mem_iff {dummy : α} (padded : Padded ways dummy filled recent)
    (bounded : recent.length ≤ ways) :
    (tag ∈ filled ↔ tag ∈ recent) ↔ (tag = dummy → recent.length = ways) := by
  rw [padded.padded, List.mem_append, List.mem_replicate]
  constructor
  · rintro same rfl
    by_contra notFull
    have room := lt_of_le_of_ne bounded notFull
    exact padded.absent room (same.1 (Or.inr ⟨by omega, rfl⟩))
  · intro full
    refine ⟨?_, Or.inl⟩
    rintro (inside | ⟨room, rfl⟩)
    · exact inside
    · have := full rfl
      omega

theorem Padded.touch {dummy : α} (padded : Padded ways dummy filled recent)
    (bounded : recent.length ≤ ways)
    (distinct : tag = dummy → recent.length = ways) :
    Padded ways dummy (touch ways filled tag) (touch ways recent tag) := by
  obtain ⟨rfl, absent⟩ := padded
  rcases Nat.eq_or_lt_of_le bounded with full | room
  · rw [full, Nat.sub_self, List.replicate_zero, List.append_nil]
    have stillFull : (Caching.touch ways recent tag).length = ways := by
      by_cases member : tag ∈ recent
      · rw [touch_of_mem bounded member, List.length_cons,
          List.length_erase_of_mem member]
        have positive := List.length_pos_of_mem member
        omega
      · rw [touch_of_not_mem member, List.length_take, List.length_cons]
        omega
    refine ⟨?_, fun smaller => absurd stillFull smaller.ne⟩
    rw [stillFull, Nat.sub_self, List.replicate_zero, List.append_nil]
  have other : tag ≠ dummy := fun same => room.ne (distinct same)
  have notPadding : tag ∉ List.replicate (ways - recent.length) dummy :=
    fun inside => other (List.eq_of_mem_replicate inside)
  by_cases member : tag ∈ recent
  · have positive := List.length_pos_of_mem member
    have erased := List.length_erase_of_mem member
    rw [touch_of_mem _ (List.mem_append_left _ member), touch_of_mem bounded member,
      List.erase_append_left _ member]
    · constructor
      · rw [List.length_cons, erased, List.cons_append,
          Nat.sub_add_cancel positive]
      · intro _ inside
        rcases List.mem_cons.1 inside with same | earlier
        · exact other same.symm
        · exact absent room (List.mem_of_mem_erase earlier)
    · rw [List.length_append, List.length_replicate]
      omega
  · have notFilled :
        tag ∉ recent ++ List.replicate (ways - recent.length) dummy := by
      rw [List.mem_append]
      exact not_or.2 ⟨member, notPadding⟩
    have whole : (tag :: recent).take ways = tag :: recent :=
      List.take_of_length_le room
    rw [touch_of_not_mem notFilled, touch_of_not_mem member, whole]
    constructor
    · rw [← List.cons_append, List.take_append, whole, List.take_replicate,
        List.length_cons]
      congr 2
      omega
    · intro _ inside
      rcases List.mem_cons.1 inside with same | earlier
      · exact other same.symm
      · exact absent room earlier

end Set

/-! ## Keys distributed over sets -/

section Sets

variable {κ : Type v} {σ : Type w} [DecidableEq σ] (setOf : κ → σ)
  (tagOf : κ → α)

/-- The tags that were fetched from a set. -/
def fetched (set : σ) (keys : List κ) : List α :=
  keys.filterMap fun key => if setOf key = set then some (tagOf key) else none

/-- What a set holds after the keys were fetched. -/
def held (ways : ℕ) (initial : List α) (set : σ) (keys : List κ) : List α :=
  (fetched setOf tagOf set keys).foldl (touch ways) initial

/-- A key misses when its set does not hold its tag. -/
def Misses (ways : ℕ) (initial : List α) (before : List κ) (key : κ) : Prop :=
  tagOf key ∉ held setOf tagOf ways initial (setOf key) before

variable {setOf tagOf} {ways : ℕ} {initial : List α} {set : σ}
  {keys before : List κ} {key : κ} {dummy : α}

omit [DecidableEq α] in
theorem fetched_concat_self :
    fetched setOf tagOf (setOf key) (before ++ [key]) =
      fetched setOf tagOf (setOf key) before ++ [tagOf key] := by
  rw [fetched, List.filterMap_append]
  simp [fetched]

omit [DecidableEq α] in
theorem fetched_concat_of_ne (other : setOf key ≠ set) :
    fetched setOf tagOf set (before ++ [key]) =
      fetched setOf tagOf set before := by
  rw [fetched, List.filterMap_append]
  simp [fetched, other]

theorem held_concat_self :
    held setOf tagOf ways initial (setOf key) (before ++ [key]) =
      touch ways (held setOf tagOf ways initial (setOf key) before)
        (tagOf key) := by
  rw [held, fetched_concat_self, List.foldl_append]
  rfl

theorem held_concat_of_ne (other : setOf key ≠ set) :
    held setOf tagOf ways initial set (before ++ [key]) =
      held setOf tagOf ways initial set before := by
  rw [held, fetched_concat_of_ne other]
  rfl

theorem holds_held (ways : ℕ) (set : σ) (keys : List κ) :
    Holds ways (held setOf tagOf ways [] set keys)
      (fetched setOf tagOf set keys) := by
  rw [held]
  generalize fetched setOf tagOf set keys = tags
  induction tags using List.reverseRecOn with
  | nil => exact holds_nil ways
  | append_singleton tags tag inductionHypothesis =>
      rw [List.foldl_append]
      exact inductionHypothesis.touch tag

/-- Every fetch of `dummy` is preceded by as many distinct tags as the set has
ways. -/
def FetchedFull (setOf : κ → σ) (tagOf : κ → α) (ways : ℕ) (dummy : α)
    (keys : List κ) : Prop :=
  ∀ before key after, keys = before ++ key :: after → tagOf key = dummy →
    ways ≤ (fetched setOf tagOf (setOf key) before).toFinset.card

theorem fetchedFull_concat_iff :
    FetchedFull setOf tagOf ways dummy (before ++ [key]) ↔
      FetchedFull setOf tagOf ways dummy before ∧
        (tagOf key = dummy →
          ways ≤ (fetched setOf tagOf (setOf key) before).toFinset.card) := by
  constructor
  · intro full
    refine ⟨fun earlier first after split => ?_, full before key [] rfl⟩
    exact full earlier first (after ++ [key]) (by rw [split]; simp)
  · rintro ⟨full, last⟩ earlier first after split
    rcases after.eq_nil_or_concat with rfl | ⟨init, final, rfl⟩
    · obtain ⟨rfl, lastEq⟩ := List.append_inj' split rfl
      obtain ⟨rfl, -⟩ := List.cons.inj lastEq
      exact last
    · rw [List.concat_eq_append, ← List.cons_append, ← List.append_assoc] at split
      exact full earlier first init (List.append_inj' split rfl).1

/-- On a key the two caches agree while its sets are padded, unless it is fetched
from a set that is not full. -/
theorem misses_iff_misses_iff
    (padded : Padded ways dummy
      (held setOf tagOf ways (List.replicate ways dummy) (setOf key) before)
      (held setOf tagOf ways [] (setOf key) before)) :
    (Misses setOf tagOf ways (List.replicate ways dummy) before key ↔
        Misses setOf tagOf ways [] before key) ↔
      (tagOf key = dummy →
        ways ≤ (fetched setOf tagOf (setOf key) before).toFinset.card) := by
  have holds : Holds ways (held setOf tagOf ways [] (setOf key) before) _ :=
    holds_held ways (setOf key) before
  rw [Misses, Misses, not_iff_not, padded.mem_iff holds.bounded, holds.full_iff]

/-- Until the tag is fetched from a set that is not full, the sets are padded. -/
theorem padded_held (full : FetchedFull setOf tagOf ways dummy keys) (set : σ) :
    Padded ways dummy
      (held setOf tagOf ways (List.replicate ways dummy) set keys)
      (held setOf tagOf ways [] set keys) := by
  induction keys using List.reverseRecOn generalizing set with
  | nil => exact padded_nil ways dummy
  | append_singleton before key inductionHypothesis =>
      obtain ⟨fullBefore, fullLast⟩ := fetchedFull_concat_iff.1 full
      by_cases same : setOf key = set
      · subst same
        have holds : Holds ways (held setOf tagOf ways [] (setOf key) before) _ :=
          holds_held ways (setOf key) before
        rw [held_concat_self, held_concat_self]
        exact (inductionHypothesis fullBefore (setOf key)).touch holds.bounded
          fun isDummy => holds.full_iff.2 (fullLast isDummy)
      · rw [held_concat_of_ne same, held_concat_of_ne same]
        exact inductionHypothesis fullBefore set

/-- A cache filled with copies of a tag misses as an empty one exactly when that
tag is fetched only from full sets. -/
theorem agree_iff :
    (∀ before key after, keys = before ++ key :: after →
      (Misses setOf tagOf ways (List.replicate ways dummy) before key ↔
        Misses setOf tagOf ways [] before key)) ↔
      FetchedFull setOf tagOf ways dummy keys := by
  constructor
  · intro agree
    induction keys using List.reverseRecOn with
    | nil =>
        rintro before key after split -
        exact absurd split.symm (by simp)
    | append_singleton before key inductionHypothesis =>
        have full := inductionHypothesis fun earlier first after split =>
          agree earlier first (after ++ [key]) (by rw [split]; simp)
        exact fetchedFull_concat_iff.2 ⟨full,
          (misses_iff_misses_iff (padded_held full (setOf key))).1
            (agree before key [] rfl)⟩
  · rintro full before key after rfl
    have fullBefore : FetchedFull setOf tagOf ways dummy before := by
      rintro earlier first later rfl
      exact full earlier first (later ++ key :: after) (by simp)
    exact (misses_iff_misses_iff (padded_held fullBefore (setOf key))).2
      (full before key after rfl)

end Sets

end Caching

end RiscvVp
