import Mathlib
import RiscvVp.NvMain.AddressTranslator

/-!
# Address mapping schemes

A scheme names the partitions from the highest to the lowest, with colons between.
The partitions that it does not name take the orders that are left.
-/

namespace RiscvVp

namespace NvMain

namespace MappingScheme

/-! ## `SetAddressMappingScheme` -/

/-- What `strtok_r` finds between colons. -/
def tokens (scheme : List Char) : List (List Char) :=
  (scheme.splitOn ':').filter (· ≠ [])

/-- The partition that a token names. -/
def named (token : List Char) : Option Partition :=
  if token = ['R'] then some .row
  else if token = ['C'] then some .col
  else if token = ['B', 'K'] then some .bank
  else if token = ['R', 'K'] then some .rank
  else if token = ['C', 'H'] then some .channel
  else if token = ['S', 'A'] then some .subarray
  else none

/-- The orders, zero if they are not set, and `currentOrder`. -/
abbrev State : Type := (Partition → ℤ) × ℤ

/-- A round of the loop over the tokens; one that names nothing takes an order
too. -/
def assign (state : State) (name : Option Partition) : State :=
  (name.elim state.1 fun part => Function.update state.1 part state.2,
    state.2 - 1)

/-- `if( part == 0 ) { part = currentOrder--; }` -/
def fill (state : State) (part : Partition) : State :=
  if state.1 part = 0 then (Function.update state.1 part state.2, state.2 - 1)
  else state

def fillOrder : List Partition :=
  [.subarray, .channel, .rank, .bank, .row, .col]

def assigned (names : List (Option Partition)) : State :=
  names.foldl assign (fun _ => 0, 6)

/-- The orders that are handed to `SetOrder`. -/
def orders (names : List (Option Partition)) : Partition → ℤ :=
  (fillOrder.foldl fill (assigned names)).1

end MappingScheme

namespace TranslationMethod

/-- `SetAddressMappingScheme`; a scheme that is longer than the buffer that it is
copied to has no result. -/
def setAddressMappingScheme (scheme : List Char) (method : TranslationMethod) :
    Option TranslationMethod :=
  if scheme.length < 16 then
    some (method.setOrder
      (MappingScheme.orders ((MappingScheme.tokens scheme).map
        MappingScheme.named)))
  else none

end TranslationMethod

namespace MappingScheme

/-! ## The orders of the tokens -/

variable {names : List (Option Partition)} {part : Partition}

theorem foldl_assign_snd (names : List (Option Partition)) (state : State) :
    (names.foldl assign state).2 = state.2 - names.length := by
  induction names generalizing state with
  | nil => simp
  | cons name names inductionHypothesis =>
      rw [List.foldl_cons, inductionHypothesis, assign, List.length_cons]
      push_cast
      ring

theorem foldl_assign_of_not_mem (outside : some part ∉ names) (state : State) :
    (names.foldl assign state).1 part = state.1 part := by
  induction names generalizing state with
  | nil => rfl
  | cons name names inductionHypothesis =>
      rw [List.mem_cons, not_or] at outside
      rw [List.foldl_cons, inductionHypothesis outside.2]
      cases name with
      | none => rfl
      | some other =>
          refine Function.update_of_ne ?_ _ _
          rintro rfl
          exact outside.1 rfl

/-- The last token that names a partition decides its order. -/
theorem foldl_assign_of_split {before after : List (Option Partition)}
    (last : some part ∉ after) (state : State) :
    ((before ++ some part :: after).foldl assign state).1 part =
      state.2 - before.length := by
  rw [List.foldl_append, List.foldl_cons, foldl_assign_of_not_mem last, assign]
  exact (Function.update_self ..).trans (foldl_assign_snd before state)

/-- A partition that is named is named for a last time. -/
theorem exists_split (member : some part ∈ names) :
    ∃ before after, names = before ++ some part :: after ∧
      some part ∉ after := by
  induction names with
  | nil => cases member
  | cons name names inductionHypothesis =>
      by_cases again : some part ∈ names
      · obtain ⟨before, after, split, last⟩ := inductionHypothesis again
        exact ⟨name :: before, after, by rw [split]; rfl, last⟩
      · obtain rfl := (List.mem_cons.1 member).resolve_right again
        exact ⟨[], names, rfl, again⟩

/-- The place of the last token that names a partition. -/
def LastAt (names : List (Option Partition)) (part : Partition) (index : ℕ) :
    Prop :=
  ∃ before after, names = before ++ some part :: after ∧
    some part ∉ after ∧ before.length = index

theorem assigned_of_lastAt {index : ℕ} (last : LastAt names part index) :
    (assigned names).1 part = 6 - index := by
  obtain ⟨before, after, rfl, last, rfl⟩ := last
  exact foldl_assign_of_split last _

theorem LastAt.lt {index : ℕ} (last : LastAt names part index) :
    index < names.length := by
  obtain ⟨before, after, rfl, -, rfl⟩ := last
  simp

theorem LastAt.getElem? {index : ℕ} (last : LastAt names part index) :
    names[index]? = some (some part) := by
  obtain ⟨before, after, rfl, -, rfl⟩ := last
  simp

/-! ## The orders that are left -/

theorem foldl_fill_of_set {parts : List Partition} (state : State)
    (set : state.1 part ≠ 0 ∨ part ∉ parts) :
    (parts.foldl fill state).1 part = state.1 part := by
  induction parts generalizing state with
  | nil => rfl
  | cons first parts inductionHypothesis =>
      rw [List.foldl_cons]
      have kept : (fill state first).1 part = state.1 part := by
        unfold fill
        split
        next unset =>
          refine Function.update_of_ne ?_ _ _
          rintro rfl
          rcases set with nonzero | outside
          · exact nonzero unset
          · exact outside List.mem_cons_self
        next => rfl
      rw [inductionHypothesis, kept]
      rw [kept]
      exact set.imp_right fun outside member =>
        outside (List.mem_cons_of_mem _ member)

/-- The unset partitions take the orders that are left one after the other. -/
theorem foldl_fill_of_getElem? {parts : List Partition} (nodup : parts.Nodup)
    {state : State} {index : ℕ}
    (here : (parts.filter fun part => state.1 part = 0)[index]? = some part) :
    (parts.foldl fill state).1 part = state.2 - index := by
  induction parts generalizing state index with
  | nil => cases here
  | cons first parts inductionHypothesis =>
      obtain ⟨fresh, nodup⟩ := List.nodup_cons.1 nodup
      rw [List.foldl_cons]
      by_cases unset : state.1 first = 0
      · have filled : fill state first =
            (Function.update state.1 first state.2, state.2 - 1) := if_pos unset
        have others : (parts.filter fun part => (fill state first).1 part = 0) =
            parts.filter fun part => state.1 part = 0 := by
          refine List.filter_congr fun other member => ?_
          have apart : other ≠ first := fun same => fresh (same ▸ member)
          rw [filled]
          simp only [Function.update_of_ne apart]
        rw [List.filter_cons_of_pos (by simpa using unset)] at here
        cases index with
        | zero =>
            cases here
            rw [foldl_fill_of_set _ (Or.inr fresh), filled]
            simp
        | succ index =>
            rw [List.getElem?_cons_succ, ← others] at here
            rw [inductionHypothesis nodup here, filled]
            push_cast
            ring
      · have kept : fill state first = state := if_neg unset
        rw [List.filter_cons_of_neg (by simpa using unset)] at here
        rw [kept]
        exact inductionHypothesis nodup here

/-! ## When all orders are taken -/

theorem nodup_fillOrder : fillOrder.Nodup := by decide

theorem mem_fillOrder (part : Partition) : part ∈ fillOrder := by
  cases part <;> decide

/-- Every order from one to six is taken. -/
def AllTaken (names : List (Option Partition)) : Prop :=
  ∀ index : ℕ, index < 6 → ∃ part, orders names part = 6 - (index : ℤ)

/-- The orders that the tokens count down are those that they name. -/
theorem lastAt_of_orders {index : ℕ} (inside : index < names.length)
    (taken : orders names part = 6 - (index : ℤ)) :
    LastAt names part index := by
  have left := foldl_assign_snd names (fun _ => 0, 6)
  change (assigned names).2 = 6 - names.length at left
  by_cases unset : (assigned names).1 part = 0
  · have member : part ∈ fillOrder.filter fun part =>
        (assigned names).1 part = 0 := by
      simp [mem_fillOrder, unset]
    obtain ⟨place, below, here⟩ := List.getElem_of_mem member
    have filled := foldl_fill_of_getElem? nodup_fillOrder
      (List.getElem?_eq_some_iff.2 ⟨below, here⟩)
    rw [← orders, taken, left] at filled
    omega
  · have kept : orders names part = (assigned names).1 part :=
      foldl_fill_of_set _ (Or.inl unset)
    have member : some part ∈ names := by
      by_contra outside
      exact unset (foldl_assign_of_not_mem outside _)
    obtain ⟨before, after, split, last⟩ := exists_split member
    have place := assigned_of_lastAt ⟨before, after, split, last, rfl⟩
    have same : before.length = index := by
      rw [← kept, taken] at place
      omega
    exact ⟨before, after, split, last, same⟩

theorem AllTaken.lastAt (all : AllTaken names) {index : ℕ}
    (inside : index < names.length) (low : index < 6) :
    ∃ part, LastAt names part index := by
  obtain ⟨part, taken⟩ := all index low
  exact ⟨part, lastAt_of_orders inside taken⟩

theorem LastAt.unique {first second : ℕ} (last : LastAt names part first)
    (again : LastAt names part second) : first = second := by
  have same := (assigned_of_lastAt last).symm.trans (assigned_of_lastAt again)
  omega

/-- Tokens that take all orders name different partitions, as far as the orders
go. -/
theorem AllTaken.exists_parts (all : AllTaken names) :
    ∃ parts : List Partition, names.take 6 = parts.map some ∧ parts.Nodup := by
  have named : ∀ name ∈ names.take 6, name.isSome := by
    intro name member
    obtain ⟨index, below, rfl⟩ := List.getElem_of_mem member
    rw [List.length_take] at below
    obtain ⟨part, last⟩ := all.lastAt (by omega) (by omega : index < 6)
    have here := last.getElem?
    rw [List.getElem_take]
    rw [List.getElem?_eq_getElem (by omega), Option.some.injEq] at here
    rw [here]
    rfl
  have restored : names.take 6 = (names.take 6).reduceOption.map some := by
    generalize names.take 6 = front at named
    induction front with
    | nil => rfl
    | cons name front inductionHypothesis =>
        obtain ⟨part, rfl⟩ := Option.isSome_iff_exists.1
          (named name List.mem_cons_self)
        rw [List.reduceOption_cons_of_some, List.map_cons,
          ← inductionHypothesis fun name member =>
            named name (List.mem_cons_of_mem _ member)]
  refine ⟨_, restored, ?_⟩
  apply List.Nodup.of_map some
  rw [← restored, List.nodup_iff_injective_getElem]
  rintro ⟨first, below⟩ ⟨second, within⟩ same
  rw [List.length_take] at below within
  simp only [List.getElem_take] at same
  obtain ⟨part, last⟩ := all.lastAt (by omega) (by omega : first < 6)
  obtain ⟨other, again⟩ := all.lastAt (by omega) (by omega : second < 6)
  have here := last.getElem?
  have there := again.getElem?
  rw [List.getElem?_eq_getElem (by omega), Option.some.injEq] at here there
  rw [here, there, Option.some.injEq] at same
  subst same
  exact Fin.ext (last.unique again)

/-- Different partitions, and the ones that are left, take all orders. -/
theorem allTaken_of_nodup {parts : List Partition} (nodup : parts.Nodup) :
    AllTaken (parts.map some) := by
  intro index low
  have left := foldl_assign_snd (parts.map some) (fun _ => 0, 6)
  rw [List.length_map] at left
  change (assigned (parts.map some)).2 = 6 - parts.length at left
  have few : parts.length ≤ 6 :=
    (List.subperm_of_subset nodup fun part _ => mem_fillOrder part).length_le
  have place : ∀ part ∈ parts, ∃ index : ℕ, index < 6 ∧
      (assigned (parts.map some)).1 part = 6 - index := by
    intro part member
    obtain ⟨before, after, split, last⟩ :=
      exists_split (List.mem_map_of_mem member)
    have last : LastAt (parts.map some) part before.length :=
      ⟨before, after, split, last, rfl⟩
    have below := last.lt
    rw [List.length_map] at below
    exact ⟨before.length, below.trans_le few, assigned_of_lastAt last⟩
  have unset_iff : ∀ part, (assigned (parts.map some)).1 part = 0 ↔
      part ∉ parts := by
    intro part
    constructor
    · intro unset member
      obtain ⟨index, low, value⟩ := place part member
      omega
    · intro outside
      refine foldl_assign_of_not_mem ?_ _
      simpa using outside
  by_cases inside : index < parts.length
  · have last : LastAt (parts.map some) parts[index] index := by
      refine ⟨(parts.take index).map some, (parts.drop (index + 1)).map some,
        ?_, ?_, ?_⟩
      · rw [← List.map_cons, ← List.map_append, List.cons_getElem_drop_succ,
          List.take_append_drop]
      · have apart := nodup
        rw [← List.take_append_drop index parts,
          ← @List.cons_getElem_drop_succ _ _ _ inside] at apart
        have fresh := (List.nodup_cons.1 (List.nodup_append.1 apart).2.1).1
        intro member
        obtain ⟨again, later, same⟩ := List.mem_map.1 member
        cases same
        exact fresh later
      · rw [List.length_map, List.length_take]
        omega
    refine ⟨parts[index], ?_⟩
    have value := assigned_of_lastAt last
    have kept : orders (parts.map some) parts[index] =
        (assigned (parts.map some)).1 parts[index] := by
      refine foldl_fill_of_set _ (Or.inl ?_)
      rw [value]
      omega
    rw [kept, value]
  · have unset : (fillOrder.filter fun part =>
        (assigned (parts.map some)).1 part = 0).length = 6 - parts.length := by
      have others : fillOrder.filter (fun part =>
          (assigned (parts.map some)).1 part = 0) =
          fillOrder.filter fun part => ¬ part ∈ parts :=
        List.filter_congr fun part _ => by simp [unset_iff]
      have named : (fillOrder.filter fun part => part ∈ parts).Perm parts := by
        refine (List.perm_ext_iff_of_nodup (nodup_fillOrder.filter _) nodup).2
          fun part => ?_
        simp [mem_fillOrder]
      have both : fillOrder.length = _ :=
        List.length_eq_length_filter_add fun part => decide (part ∈ parts)
      rw [named.length_eq] at both
      rw [others]
      have six : fillOrder.length = 6 := rfl
      simp only [decide_not] at both ⊢
      omega
    have below : index - parts.length < (fillOrder.filter fun part =>
        (assigned (parts.map some)).1 part = 0).length := by
      rw [unset]
      omega
    refine ⟨_, (foldl_fill_of_getElem? nodup_fillOrder
      (List.getElem?_eq_getElem below)).trans ?_⟩
    rw [left]
    omega

/-! ## The length of a scheme -/

theorem sum_splitOn (scheme : List Char) :
    ((scheme.splitOn ':').map fun token => token.length + 1).sum =
      scheme.length + 1 := by
  induction scheme with
  | nil => rfl
  | cons character scheme inductionHypothesis =>
      rw [List.splitOn_cons_eq_if_modifyHead]
      split
      · rw [List.map_cons, List.sum_cons, inductionHypothesis,
          List.length_cons]
        simp [Nat.add_comm]
      · cases pieces : scheme.splitOn ':' with
        | nil => exact absurd pieces (List.splitOn_ne_nil _ _)
        | cons first rest =>
            rw [pieces, List.map_cons, List.sum_cons] at inductionHypothesis
            simp only [List.modifyHead_cons, List.map_cons, List.sum_cons,
              List.length_cons]
            omega

theorem sum_tokens_le (scheme : List Char) :
    ((tokens scheme).map fun token => token.length + 1).sum ≤
      scheme.length + 1 := by
  rw [← sum_splitOn]
  exact (List.filter_sublist.map _).sum_le_sum fun _ _ => Nat.zero_le _

/-! ## Schemes that find every order -/

/-- The token that names a partition. -/
def spelling : Partition → List Char
  | .row => ['R']
  | .col => ['C']
  | .bank => ['B', 'K']
  | .rank => ['R', 'K']
  | .channel => ['C', 'H']
  | .subarray => ['S', 'A']

theorem named_spelling (part : Partition) : named (spelling part) = some part := by
  cases part <;> rfl

theorem eq_spelling_of_named {token : List Char}
    (spelled : named token = some part) : token = spelling part := by
  unfold named at spelled
  repeat' split at spelled
  all_goals
    cases spelled
    try assumption

theorem spelling_injective : Function.Injective spelling := by
  intro first second same
  have named := congrArg named same
  simpa only [named_spelling, Option.some.injEq] using named

/-- Tokens that all name partitions are spelled out. -/
theorem exists_spelling {pieces : List (List Char)} {parts : List Partition}
    (same : pieces.map named = parts.map some) : pieces = parts.map spelling := by
  induction pieces generalizing parts with
  | nil =>
      cases parts with
      | nil => rfl
      | cons part parts => cases same
  | cons token pieces inductionHypothesis =>
      cases parts with
      | nil => cases same
      | cons part parts =>
          rw [List.map_cons, List.map_cons, List.cons.injEq] at same
          rw [List.map_cons, ← eq_spelling_of_named same.1,
            ← inductionHypothesis same.2]

/-- A scheme in the buffer has no token after all partitions. -/
theorem length_tokens_le {scheme : List Char} (short : scheme.length < 16)
    {parts : List Partition} (nodup : parts.Nodup)
    (first : (tokens scheme).take 6 = parts.map spelling) :
    (tokens scheme).length ≤ 6 := by
  by_contra many
  have six : parts.length = 6 := by
    have lengths := congrArg List.length first
    rw [List.length_take, List.length_map] at lengths
    omega
  have perm : parts.Perm Partition.all :=
    (List.subperm_of_subset nodup fun part _ => part.mem_all).perm_of_length_le
      (Nat.le_of_eq six.symm)
  have spelled : ((parts.map spelling).map fun token => token.length + 1).sum =
      16 := by
    rw [((perm.map _).map _).sum_eq]
    rfl
  have total := sum_tokens_le scheme
  rw [← List.take_append_drop 6 (tokens scheme), first,
    List.drop_eq_getElem_cons (Nat.lt_of_not_le many), List.map_append,
    List.sum_append, spelled, List.map_cons, List.sum_cons] at total
  omega

theorem allTaken_iff {scheme : List Char} (short : scheme.length < 16) :
    AllTaken ((tokens scheme).map named) ↔
      (tokens scheme).Nodup ∧ ∀ token ∈ tokens scheme, (named token).isSome := by
  constructor
  · intro all
    obtain ⟨parts, first, nodup⟩ := all.exists_parts
    rw [← List.map_take] at first
    have spelled := exists_spelling first
    have few := length_tokens_le short nodup spelled
    rw [List.take_of_length_le few] at spelled
    rw [spelled]
    refine ⟨nodup.map spelling_injective, fun token member => ?_⟩
    obtain ⟨part, -, rfl⟩ := List.mem_map.1 member
    rw [named_spelling]
    rfl
  · rintro ⟨nodup, valid⟩
    obtain ⟨parts, same⟩ : ∃ parts : List Partition,
        tokens scheme = parts.map spelling := by
      generalize tokens scheme = pieces at valid
      induction pieces with
      | nil => exact ⟨[], rfl⟩
      | cons token pieces inductionHypothesis =>
          obtain ⟨part, spelled⟩ :=
            Option.isSome_iff_exists.1 (valid token List.mem_cons_self)
          obtain ⟨parts, rest⟩ := inductionHypothesis fun token member =>
            valid token (List.mem_cons_of_mem _ member)
          exact ⟨part :: parts, by
            rw [List.map_cons, ← rest, ← eq_spelling_of_named spelled]⟩
    have names : (tokens scheme).map named = parts.map some := by
      rw [same, List.map_map]
      exact List.map_congr_left fun part _ => named_spelling part
    rw [names]
    rw [same] at nodup
    exact allTaken_of_nodup (List.Nodup.of_map _ nodup)

end MappingScheme

namespace AddressTranslator

open MappingScheme

variable {translator : AddressTranslator}

theorem findOrder_isSome_iff {i : ℤ} :
    (translator.findOrder i).isSome ↔
      ∃ part, translator.method.order part = i := by
  constructor
  · intro found
    obtain ⟨part, found⟩ := Option.isSome_iff_exists.1 found
    exact ⟨part, order_of_findOrder found⟩
  · rintro ⟨part, rfl⟩
    unfold findOrder
    repeat' split
    all_goals first
      | rfl
      | cases part <;> contradiction

theorem complete_iff_allTaken {names : List (Option Partition)}
    (ordered : translator.method.order = fun part => orders names part - 1) :
    translator.Complete ↔ AllTaken names := by
  constructor
  · intro complete index low
    have member : (5 - index : ℤ) ∈ rounds := by
      interval_cases index <;> decide
    obtain ⟨part, taken⟩ := findOrder_isSome_iff.1 (complete _ member)
    simp only [ordered] at taken
    exact ⟨part, by omega⟩
  · intro all i member
    have range : 0 ≤ i ∧ i ≤ 5 := by
      simp only [rounds, List.mem_cons, List.not_mem_nil, or_false] at member
      omega
    obtain ⟨part, taken⟩ := all (5 - i).toNat (by omega)
    refine findOrder_isSome_iff.2 ⟨part, ?_⟩
    simp only [ordered]
    omega

/-- The tokens of a scheme are distinct and known. -/
structure Wellformed (scheme : List Char) : Prop where
  nodup : (tokens scheme).Nodup
  known : ∀ token ∈ tokens scheme, (named token).isSome

theorem complete_iff_wellformed {method : TranslationMethod} {scheme : List Char}
    (set : method.setAddressMappingScheme scheme = some translator.method) :
    translator.Complete ↔ Wellformed scheme := by
  unfold TranslationMethod.setAddressMappingScheme at set
  split at set
  next short =>
    have ordered : translator.method.order = fun part =>
        orders ((tokens scheme).map named) part - 1 := by
      rw [← Option.some.inj set]
      rfl
    rw [complete_iff_allTaken ordered, allTaken_iff short]
    exact ⟨fun both => ⟨both.1, both.2⟩, fun both => ⟨both.nodup, both.known⟩⟩
  next => cases set

theorem complete_of_foldlM {σ : Type} {round : σ → Partition → σ}
    {orders : List ℤ} {state final : σ}
    (folded : orders.foldlM (fun state i => do
      return round state (← translator.findOrder i)) state = some final) :
    ∀ i ∈ orders, (translator.findOrder i).isSome := by
  induction orders generalizing state with
  | nil =>
      intro i member
      cases member
  | cons first orders inductionHypothesis =>
      rw [List.foldlM_cons] at folded
      obtain ⟨next, step, folded⟩ := Option.bind_eq_some_iff.1 folded
      obtain ⟨part, found, -⟩ := Option.bind_eq_some_iff.1 step
      intro i member
      rcases List.mem_cons.1 member with rfl | later
      · rw [found]
        rfl
      · exact inductionHypothesis folded i later

/-- A scheme of distinct and known tokens configures a translator that has
coordinates for every address, and every other scheme configures one that has them
for no address. -/
theorem translate_isSome_iff_wellformed {method : TranslationMethod}
    {scheme : List Char}
    (set : method.setAddressMappingScheme scheme = some translator.method)
    (address : BitVec 64) (before : Partition → BitVec 64) :
    (translator.translate address before).isSome ↔ Wellformed scheme := by
  rw [← complete_iff_wellformed set]
  constructor
  · intro translated
    obtain ⟨fields, translated⟩ := Option.isSome_iff_exists.1 translated
    obtain ⟨state, folded, -⟩ := Option.bind_eq_some_iff.1 translated
    exact complete_of_foldlM folded
  · intro complete
    obtain ⟨fields, translated, -⟩ := translate_of_complete complete before address
    rw [translated]
    rfl

/-- The scheme that `Params` starts with. -/
def defaultScheme : List Char :=
  ['R', ':', 'S', 'A', ':', 'R', 'K', ':', 'B', 'K', ':', 'C', 'H', ':', 'C']

theorem translate_isSome_iff_wellformed_defaultScheme :
    TranslationMethod.new.setAddressMappingScheme defaultScheme =
      some ((withMethod (TranslationMethod.new.setOrder
        (orders ((tokens defaultScheme).map named)))).method) ∧
    (((withMethod (TranslationMethod.new.setOrder
      (orders ((tokens defaultScheme).map named)))).translate 4096
        fun _ => 0).isSome ↔ Wellformed defaultScheme) := by
  have set : TranslationMethod.new.setAddressMappingScheme defaultScheme =
      some ((withMethod (TranslationMethod.new.setOrder
        (orders ((tokens defaultScheme).map named)))).method) := rfl
  exact ⟨set, translate_isSome_iff_wellformed set 4096 fun _ => 0⟩

end AddressTranslator

end NvMain

end RiscvVp
