import Mathlib.Data.List.FinRange

/-!
# Loops over lanes

A loop whose rounds each work on a lane of their own does to every lane what
that lane's round does.
-/

namespace RiscvVp

namespace Lanes

variable {σ τ ι : Type} {view : ι → σ → τ} {round : ι → σ → σ}
  {change : ι → τ → τ}

theorem view_foldl_of_notMem
    (apart : ∀ lane other state, other ≠ lane →
      view other (round lane state) = view other state)
    {lanes : List ι} {lane : ι} (absent : lane ∉ lanes) (state : σ) :
    view lane (lanes.foldl (fun state lane => round lane state) state) =
      view lane state := by
  induction lanes generalizing state with
  | nil => rfl
  | cons first lanes inductionHypothesis =>
      obtain ⟨different, later⟩ := List.ne_and_not_mem_of_not_mem_cons absent
      rw [List.foldl_cons, inductionHypothesis later,
        apart first lane state different]

theorem view_foldl_of_mem
    (own : ∀ lane state, view lane (round lane state) =
      change lane (view lane state))
    (apart : ∀ lane other state, other ≠ lane →
      view other (round lane state) = view other state)
    {lanes : List ι} (distinct : lanes.Nodup) {lane : ι}
    (member : lane ∈ lanes) (state : σ) :
    view lane (lanes.foldl (fun state lane => round lane state) state) =
      change lane (view lane state) := by
  induction lanes generalizing state with
  | nil => cases member
  | cons first lanes inductionHypothesis =>
      obtain ⟨fresh, rest⟩ := List.nodup_cons.mp distinct
      rw [List.foldl_cons]
      rcases List.mem_cons.mp member with rfl | later
      · rw [view_foldl_of_notMem apart fresh, own]
      · have different : lane ≠ first := fun same => fresh (same ▸ later)
        rw [inductionHypothesis rest later, apart first lane state different]

/-- A loop over all lanes. -/
theorem view_foldl_finRange {count : ℕ} {view : Fin count → σ → τ}
    {round : Fin count → σ → σ} (change : Fin count → τ → τ)
    (own : ∀ lane state, view lane (round lane state) =
      change lane (view lane state))
    (apart : ∀ lane other state, other ≠ lane →
      view other (round lane state) = view other state)
    (lane : Fin count) (state : σ) :
    view lane ((List.finRange count).foldl
      (fun state lane => round lane state) state) =
        change lane (view lane state) :=
  view_foldl_of_mem own apart (List.nodup_finRange count)
    (List.mem_finRange lane) state

end Lanes

end RiscvVp
