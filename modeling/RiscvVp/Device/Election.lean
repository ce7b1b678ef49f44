import Mathlib

/-!
# Elections

A scan over candidates in increasing order that keeps the first one of
strictly greater rank.  What it finds is the least candidate among those of
greatest rank, provided that one outranks the scan's start.
-/

namespace RiscvVp

namespace Election

section Scan

variable {ι ν : Type} [LinearOrder ι] [LinearOrder ν]

/-- The winner is a candidate, none outranks it, and it is the least among its
equals. -/
structure Elected (candidate : ι → Prop) (rank : ι → ν) (winner : ι) : Prop where
  stands : candidate winner
  greatest : ∀ other, candidate other → rank other ≤ rank winner
  least : ∀ other, candidate other → rank other = rank winner → winner ≤ other

theorem Elected.unique {candidate : ι → Prop} {rank : ι → ν} {first second : ι}
    (one : Elected candidate rank first)
    (another : Elected candidate rank second) : first = second := by
  have same : rank first = rank second :=
    le_antisymm (another.greatest first one.stands)
      (one.greatest second another.stands)
  exact le_antisymm (one.least second another.stands same.symm)
    (another.least first one.stands same)

/-- The winner of an election, or a default when nobody stands. -/
def ElectedElse (candidate : ι → Prop) (rank : ι → ν) (default winner : ι) :
    Prop :=
  (winner = default ∧ ∀ item, ¬ candidate item) ∨ Elected candidate rank winner

theorem ElectedElse.unique {candidate : ι → Prop} {rank : ι → ν}
    {default first second : ι}
    (one : ElectedElse candidate rank default first)
    (another : ElectedElse candidate rank default second) :
    first = second := by
  rcases one with ⟨rfl, nobody⟩ | one
  · rcases another with ⟨rfl, _⟩ | another
    · rfl
    · exact absurd another.stands (nobody second)
  · rcases another with ⟨rfl, nobody⟩ | another
    · exact absurd one.stands (nobody first)
    · exact one.unique another

/-- One turn of the scan: only a strictly greater rank replaces the best. -/
def consider (admits : ι → Bool) (rank : ι → ν) (best : ι × ν) (item : ι) :
    ι × ν :=
  if admits item && decide (best.2 < rank item) then (item, rank item)
  else best

def scan (admits : ι → Bool) (rank : ι → ν) (items : List ι) (best : ι × ν) :
    ι × ν :=
  items.foldl (consider admits rank) best

/-- What the scan has found so far: the best it started with and nothing above
it, or the candidate elected among the items seen that rank above the start. -/
def Found (admits : ι → Bool) (rank : ι → ν) (items : List ι)
    (start best : ι × ν) : Prop :=
  (best = start ∧ ∀ item ∈ items, admits item → rank item ≤ start.2) ∨
    (best.2 = rank best.1 ∧
      Elected (fun item => item ∈ items ∧ admits item ∧ start.2 < rank item)
        rank best.1)

theorem found_consider {admits : ι → Bool} {rank : ι → ν} {items : List ι}
    {start best : ι × ν} {item : ι} (later : ∀ seen ∈ items, seen < item)
    (found : Found admits rank items start best) :
    Found admits rank (items ++ [item]) start
      (consider admits rank best item) := by
  by_cases replaces : admits item ∧ best.2 < rank item
  · obtain ⟨admitted, above⟩ := replaces
    have result : consider admits rank best item = (item, rank item) := by
      simp [consider, admitted, above]
    rw [result]
    -- Everything seen before ranks at most `best.2`, hence strictly below.
    have below : ∀ seen ∈ items, admits seen → rank seen ≤ best.2 := by
      intro seen member admittedSeen
      rcases found with ⟨rfl, low⟩ | ⟨rankEq, elected⟩
      · exact low seen member admittedSeen
      · rw [rankEq]
        by_cases exceeds : start.2 < rank seen
        · exact elected.greatest seen ⟨member, admittedSeen, exceeds⟩
        · exact (not_lt.mp exceeds).trans elected.stands.2.2.le
    have exceeds : start.2 < rank item := by
      rcases found with ⟨rfl, _⟩ | ⟨rankEq, elected⟩
      · exact above
      · exact elected.stands.2.2.trans (rankEq ▸ above)
    refine Or.inr ⟨rfl, ⟨by simp, admitted, exceeds⟩, ?_, ?_⟩
    · rintro other ⟨member, admittedOther, _⟩
      rcases List.mem_append.mp member with seen | last
      · exact (below other seen admittedOther).trans above.le
      · exact (List.mem_singleton.mp last ▸ le_rfl)
    · rintro other ⟨member, admittedOther, _⟩ same
      rcases List.mem_append.mp member with seen | last
      · exact absurd same ((below other seen admittedOther).trans_lt above).ne
      · exact (List.mem_singleton.mp last).ge
  · have result : consider admits rank best item = best := by
      have refused : ¬ (admits item && decide (best.2 < rank item)) = true := by
        simpa using replaces
      simp only [consider, if_neg refused]
    rw [result]
    have low : admits item → rank item ≤ best.2 := fun admitted =>
      not_lt.mp fun above => replaces ⟨admitted, above⟩
    rcases found with ⟨rfl, below⟩ | ⟨rankEq, elected⟩
    · refine Or.inl ⟨rfl, fun other member admittedOther => ?_⟩
      rcases List.mem_append.mp member with seen | last
      · exact below other seen admittedOther
      · obtain rfl := List.mem_singleton.mp last
        exact low admittedOther
    · refine Or.inr ⟨rankEq, ?_, ?_, ?_⟩
      · exact ⟨List.mem_append_left _ elected.stands.1,
          elected.stands.2⟩
      · rintro other ⟨member, admittedOther, exceeds⟩
        rcases List.mem_append.mp member with seen | last
        · exact elected.greatest other ⟨seen, admittedOther, exceeds⟩
        · obtain rfl := List.mem_singleton.mp last
          exact rankEq ▸ low admittedOther
      · rintro other ⟨member, admittedOther, exceeds⟩ same
        rcases List.mem_append.mp member with seen | last
        · exact elected.least other ⟨seen, admittedOther, exceeds⟩ same
        · obtain rfl := List.mem_singleton.mp last
          exact (later _ elected.stands.1).le

/-- The scan of an increasing list, whatever it starts with. -/
theorem found_scan (admits : ι → Bool) (rank : ι → ν) (start : ι × ν)
    (items : List ι) (increasing : items.Pairwise (· < ·)) :
    Found admits rank items start (scan admits rank items start) := by
  induction items using List.reverseRecOn with
  | nil => exact Or.inl ⟨rfl, by simp⟩
  | append_singleton items item inductionHypothesis =>
      rw [List.pairwise_append] at increasing
      have later : ∀ seen ∈ items, seen < item := fun seen member =>
        increasing.2.2 seen member item (by simp)
      have step := found_consider later (inductionHypothesis increasing.1)
      simpa only [scan, List.foldl_append, List.foldl_cons, List.foldl_nil]
        using step

end Scan

end Election

end RiscvVp
