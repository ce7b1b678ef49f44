import Mathlib
import RiscvVp.Bits.Mask
import RiscvVp.Caching.Lru
import RiscvVp.Rv32.Timing

/-!
# The timing of the instruction cache

`InstrMemoryProxyWithHiFive1CacheTiming` keeps the two addresses that each line of
a two way cache holds and a mark for the one that was used last.  A miss stalls
the pipeline.
-/

namespace RiscvVp

namespace Rv32

namespace InstrCache

open Caching

def cacheLineLoadDelayMin : ℕ := 4520

def cacheLineLoadDelayMax : ℕ := 4720

def cacheLineLoadDelayDelta : ℕ := cacheLineLoadDelayMax - cacheLineLoadDelayMin

/-- A two way line. -/
structure CacheLine where
  first : BitVec 32 := 0
  second : BitVec 32 := 0
  /-- the first way was used last -/
  stat : Bool := false

/-- `TAG`, which selects the line. -/
def tag (pc : BitVec 32) : BitVec 32 := (pc &&& (0b111111111 <<< 5)) >>> 5

/-- `HEAD` -/
def head (pc : BitVec 32) : BitVec 32 := pc &&& ~~~0b11111111111111

abbrev Lines : Type := BitVec 32 → CacheLine

structure InstrMemoryProxy where
  pipeline : HiFive1PipelineTiming
  lines : Lines := fun _ => {}

/-- `rand() % cache_line_load_delay_delta + cache_line_load_delay_min`, and the
pipeline after the call of `rand`. -/
def cacheMissPenalty (pipeline : HiFive1PipelineTiming) :
    ℕ × HiFive1PipelineTiming :=
  (pipeline.rand pipeline.randCalls % cacheLineLoadDelayDelta +
      cacheLineLoadDelayMin,
    { pipeline with randCalls := pipeline.randCalls + 1 })

/-- `update_timing_model`; `none` when the assertion fails. -/
def updateTimingModel (pc : BitVec 64) (proxy : InstrMemoryProxy) :
    Option InstrMemoryProxy :=
  if pc ≤ 0xffffffff then
    let tag := tag (pc.setWidth 32)
    let head := head (pc.setWidth 32)
    let line := proxy.lines tag
    if line.first = head then
      some { proxy with
        lines := Function.update proxy.lines tag { line with stat := true } }
    else if line.second = head then
      some { proxy with
        lines := Function.update proxy.lines tag { line with stat := false } }
    else
      let (penalty, drawn) := cacheMissPenalty proxy.pipeline
      let swapped :=
        if line.stat then { line with second := head }
        else { line with first := head }
      some
        { pipeline := drawn.stall penalty
          lines := Function.update proxy.lines tag
            { swapped with stat := !line.stat } }
  else none

/-! ## Runs of fetches -/

/-- The address of a fetch and the pipeline as it is then. -/
structure Fetch where
  pipeline : HiFive1PipelineTiming
  pc : BitVec 64

def fetch (lines : Lines) (access : Fetch) : Option InstrMemoryProxy :=
  updateTimingModel access.pc ⟨access.pipeline, lines⟩

/-- The lines after some fetches from reset. -/
def run (accesses : List Fetch) : Option Lines :=
  accesses.foldlM (fun lines access =>
    (fetch lines access).map InstrMemoryProxy.lines) fun _ => {}

/-- The fetch costs cycles. -/
def ReportsMiss (before : List Fetch) (access : Fetch) : Prop :=
  ∃ lines proxy, run before = some lines ∧ fetch lines access = some proxy ∧
    proxy.pipeline.numTotalCycles ≠ access.pipeline.numTotalCycles

/-! ## The cache that is modelled -/

/-- The cache has 512 sets of lines of 32 bytes. -/
def setOf (access : Fetch) : ℕ := access.pc.toNat / 32 % 512

def tagOf (access : Fetch) : ℕ := access.pc.toNat / (32 * 512)

/-- A miss is reported for the fetches that miss in a two way cache which starts
empty. -/
def ModelsCache (accesses : List Fetch) : Prop :=
  ∀ before access after, accesses = before ++ access :: after →
    (ReportsMiss before access ↔ Misses setOf tagOf 2 [] before access)

/-! ## One line -/

namespace CacheLine

/-- The addresses of a line, the most recent first. -/
def recent (line : CacheLine) : List (BitVec 32) :=
  if line.stat then [line.first, line.second] else [line.second, line.first]

/-- The line after an address was looked up in it. -/
def lookup (head : BitVec 32) (line : CacheLine) : CacheLine :=
  if line.first = head then { line with stat := true }
  else if line.second = head then { line with stat := false }
  else if line.stat then { line with second := head, stat := false }
  else { line with first := head, stat := true }

theorem mem_recent_iff (line : CacheLine) (head : BitVec 32) :
    head ∈ line.recent ↔ line.first = head ∨ line.second = head := by
  rw [recent]
  split <;> simp [eq_comm, or_comm]

/-- A line replaces the address that was not used last. -/
theorem recent_lookup (line : CacheLine) (head : BitVec 32) :
    (line.lookup head).recent = touch 2 line.recent head := by
  rcases line with ⟨first, second, stat⟩
  by_cases hitFirst : first = head
  · subst hitFirst
    cases stat
    · by_cases same : second = first
      · subst same
        simp [lookup, recent, touch]
      · simp [lookup, recent, touch, same]
    · simp [lookup, recent, touch]
  by_cases hitSecond : second = head
  · subst hitSecond
    cases stat <;>
      simp [lookup, recent, touch, hitFirst]
  · cases stat <;>
      simp [lookup, recent, touch, hitFirst, hitSecond]

end CacheLine

/-! ## Which line, which address -/

theorem toNat_tag (pc : BitVec 32) : (tag pc).toNat = pc.toNat / 32 % 512 := by
  have mask : (0b111111111 <<< 5 : BitVec 32) >>> 5 = Mask.mask 32 9 := by decide
  rw [tag, BitVec.ushiftRight_and_distrib, mask, Mask.toNat_and_mask (by decide),
    BitVec.toNat_ushiftRight, Nat.shiftRight_eq_div_pow]
  rfl

theorem toNat_head (pc : BitVec 32) :
    (head pc).toNat = pc.toNat / (32 * 512) * (32 * 512) := by
  have mask : (0b11111111111111 : BitVec 32) = Mask.mask 32 14 := by decide
  rw [head, mask, Mask.toNat_and_not_mask (by decide)]
  rfl

/-- A miss adds cycles. -/
theorem numTotalCycles_stall (pipeline : HiFive1PipelineTiming) :
    ((cacheMissPenalty pipeline).2.stall
      (cacheMissPenalty pipeline).1).numTotalCycles ≠ pipeline.numTotalCycles := by
  have small := Nat.mod_lt (pipeline.rand pipeline.randCalls)
    (show 0 < cacheLineLoadDelayDelta by decide)
  have penalty : (cacheMissPenalty pipeline).1 =
    pipeline.rand pipeline.randCalls % cacheLineLoadDelayDelta + 4520 := rfl
  have delta : cacheLineLoadDelayDelta = 200 := rfl
  intro same
  have counts := congrArg BitVec.toNat same
  change (pipeline.numTotalCycles + BitVec.ofNat 64 _).toNat = _ at counts
  rw [BitVec.toNat_add, BitVec.toNat_ofNat] at counts
  have bounded := pipeline.numTotalCycles.isLt
  omega

/-- Looking an address up in its line. -/
theorem fetch_eq {access : Fetch} (bounded : access.pc ≤ 0xffffffff)
    (lines : Lines) :
    ∃ pipeline, fetch lines access = some
        { pipeline
          lines := Function.update lines (tag (access.pc.setWidth 32))
            ((lines (tag (access.pc.setWidth 32))).lookup
              (head (access.pc.setWidth 32))) } ∧
      (pipeline.numTotalCycles ≠ access.pipeline.numTotalCycles ↔
        head (access.pc.setWidth 32) ∉
          (lines (tag (access.pc.setWidth 32))).recent) := by
  rw [fetch, updateTimingModel, if_pos bounded, CacheLine.mem_recent_iff,
    CacheLine.lookup]
  generalize head (access.pc.setWidth 32) = head
  generalize tag (access.pc.setWidth 32) = tag
  by_cases hitFirst : (lines tag).first = head
  · exact ⟨access.pipeline, by simp [hitFirst], by simp [hitFirst]⟩
  by_cases hitSecond : (lines tag).second = head
  · exact ⟨access.pipeline, by simp [hitFirst, hitSecond],
      by simp [hitSecond]⟩
  refine ⟨_, ?_, iff_of_true (numTotalCycles_stall access.pipeline)
    (not_or.2 ⟨hitFirst, hitSecond⟩)⟩
  cases mark : (lines tag).stat <;> simp [hitFirst, hitSecond, mark]

/-! ## All lines -/

/-- The lines hold the addresses that a cache holds whose ways start at
zero. -/
def Represents (lines : Lines) (before : List Fetch) : Prop :=
  ∀ tag : BitVec 32, (lines tag).recent.map BitVec.toNat =
    (held setOf tagOf 2 (List.replicate 2 0) tag.toNat before).map
      (· * (32 * 512))

theorem toNat_setWidth_pc {access : Fetch} (bounded : access.pc ≤ 0xffffffff) :
    (access.pc.setWidth 32).toNat = access.pc.toNat := by
  rw [BitVec.toNat_setWidth]
  exact Nat.mod_eq_of_lt (Nat.lt_succ_of_le (BitVec.le_def.1 bounded))

theorem toNat_tag_pc {access : Fetch} (bounded : access.pc ≤ 0xffffffff) :
    (tag (access.pc.setWidth 32)).toNat = setOf access := by
  rw [toNat_tag, toNat_setWidth_pc bounded]
  rfl

theorem toNat_head_pc {access : Fetch} (bounded : access.pc ≤ 0xffffffff) :
    (head (access.pc.setWidth 32)).toNat = tagOf access * (32 * 512) := by
  rw [toNat_head, toNat_setWidth_pc bounded]
  rfl

theorem scale_injective : Function.Injective fun tag : ℕ => tag * (32 * 512) :=
  fun _ _ same => Nat.eq_of_mul_eq_mul_right (by decide) same

/-- Reset leaves every way at zero. -/
theorem represents_nil : Represents (fun _ => {}) [] :=
  fun _ => rfl

theorem Represents.fetch {lines : Lines} {before : List Fetch} {access : Fetch}
    {proxy : InstrMemoryProxy} (represents : Represents lines before)
    (bounded : access.pc ≤ 0xffffffff) (fetched : fetch lines access = some proxy) :
    Represents proxy.lines (before ++ [access]) := by
  obtain ⟨pipeline, fetchedEq, -⟩ := fetch_eq bounded lines
  rw [fetchedEq] at fetched
  obtain rfl := Option.some.inj fetched
  intro line
  change (Function.update lines _ _ line).recent.map BitVec.toNat = _
  by_cases same : line = tag (access.pc.setWidth 32)
  · subst same
    rw [Function.update_self, CacheLine.recent_lookup,
      map_touch (fun _ _ => BitVec.eq_of_toNat_eq), represents,
      toNat_tag_pc bounded, toNat_head_pc bounded, held_concat_self,
      ← map_touch scale_injective]
  · rw [Function.update_of_ne same, represents, held_concat_of_ne]
    rw [← toNat_tag_pc bounded]
    exact fun equal => same (BitVec.eq_of_toNat_eq equal.symm)

/-- No assertion fails, and the lines hold what a cache holds. -/
theorem represents_run {accesses : List Fetch}
    (bounded : ∀ access ∈ accesses, access.pc ≤ 0xffffffff) :
    ∃ lines, run accesses = some lines ∧ Represents lines accesses := by
  induction accesses using List.reverseRecOn with
  | nil => exact ⟨_, rfl, represents_nil⟩
  | append_singleton before access inductionHypothesis =>
      obtain ⟨lines, ran, represents⟩ := inductionHypothesis fun earlier member =>
        bounded earlier (List.mem_append_left _ member)
      have accessBounded :=
        bounded access (List.mem_append_right _ (List.mem_singleton_self _))
      obtain ⟨pipeline, fetched, -⟩ := fetch_eq accessBounded lines
      refine ⟨_, ?_, represents.fetch accessBounded fetched⟩
      rw [run] at ran ⊢
      rw [List.foldlM_append, ran, Option.bind_eq_bind, Option.bind_some,
        List.foldlM_cons, fetched]
      rfl

/-- The code misses as a cache whose ways start at zero. -/
theorem reportsMiss_iff {before : List Fetch} {access : Fetch}
    (bounded : ∀ earlier ∈ before, earlier.pc ≤ 0xffffffff)
    (accessBounded : access.pc ≤ 0xffffffff) :
    ReportsMiss before access ↔
      Misses setOf tagOf 2 (List.replicate 2 0) before access := by
  obtain ⟨lines, ran, represents⟩ := represents_run bounded
  obtain ⟨pipeline, fetched, missed⟩ := fetch_eq accessBounded lines
  have member_iff : head (access.pc.setWidth 32) ∈
      (lines (tag (access.pc.setWidth 32))).recent ↔
        tagOf access ∈
          held setOf tagOf 2 (List.replicate 2 0) (setOf access) before := by
    rw [← List.mem_map_of_injective fun _ _ => BitVec.eq_of_toNat_eq,
      represents, toNat_head_pc accessBounded, toNat_tag_pc accessBounded]
    exact List.mem_map_of_injective scale_injective
  rw [Misses, ← member_iff, ← missed]
  constructor
  · rintro ⟨otherLines, proxy, otherRan, otherFetched, costs⟩
    obtain rfl := Option.some.inj (ran.symm.trans otherRan)
    obtain rfl := Option.some.inj (fetched.symm.trans otherFetched)
    exact costs
  · intro costs
    exact ⟨lines, _, ran, fetched, costs⟩

/-- The cache is modelled exactly when the addresses below `32 * 512` are fetched
only from sets of which two other lines were fetched before. -/
theorem modelsCache_iff {accesses : List Fetch}
    (bounded : ∀ access ∈ accesses, access.pc ≤ 0xffffffff) :
    ModelsCache accesses ↔ FetchedFull setOf tagOf 2 0 accesses := by
  rw [← agree_iff, ModelsCache]
  constructor
  · rintro models before access after rfl
    have beforeBounded : ∀ earlier ∈ before, earlier.pc ≤ 0xffffffff :=
      fun earlier member => bounded earlier (List.mem_append_left _ member)
    have accessBounded : access.pc ≤ 0xffffffff :=
      bounded access (List.mem_append_right _ List.mem_cons_self)
    rw [← reportsMiss_iff beforeBounded accessBounded]
    exact models before access after rfl
  · rintro agree before access after rfl
    have beforeBounded : ∀ earlier ∈ before, earlier.pc ≤ 0xffffffff :=
      fun earlier member => bounded earlier (List.mem_append_left _ member)
    have accessBounded : access.pc ≤ 0xffffffff :=
      bounded access (List.mem_append_right _ List.mem_cons_self)
    rw [reportsMiss_iff beforeBounded accessBounded]
    exact agree before access after rfl

/-- Fetches from the flash memory that all go to one set: the second and the fourth
hit, the fifth replaces the line of the third, and the sixth misses again. -/
def flashFetches : List Fetch :=
  [0x20001000, 0x20001004, 0x20005000, 0x20001008, 0x20009000, 0x20005004].map
    fun pc => ⟨{}, pc⟩

/-- A fetch from the mask ROM, in the same set. -/
def maskRomFetch : Fetch := ⟨{}, 0x1000⟩

theorem modelsCache_flashFetches :
    ModelsCache (flashFetches ++ [maskRomFetch]) ∧
      ¬ Misses setOf tagOf 2 [] (flashFetches.take 3) ⟨{}, 0x20001008⟩ ∧
      Misses setOf tagOf 2 [] (flashFetches.take 5) ⟨{}, 0x20005004⟩ ∧
      Misses setOf tagOf 2 [] flashFetches maskRomFetch := by
  refine ⟨(modelsCache_iff (by decide)).2 ?_, ?_⟩
  · refine fetchedFull_concat_iff.2 ⟨?_, fun _ => by decide⟩
    rintro before access after split isZero
    have every : ∀ access ∈ flashFetches, tagOf access ≠ 0 := by decide
    have member : access ∈ flashFetches := by
      rw [split]
      exact List.mem_append_right before List.mem_cons_self
    exact absurd isZero (every access member)
  · unfold Misses
    decide

/-- The lines that were never fetched hold address zero. -/
theorem not_modelsCache_zero :
    ¬ ∀ accesses : List Fetch,
      (∀ access ∈ accesses, access.pc ≤ 0xffffffff) → ModelsCache accesses := by
  intro models
  have zero := models [⟨{}, 0⟩] (by decide) [] ⟨{}, 0⟩ [] rfl
  have misses : Misses setOf tagOf 2 [] [] (⟨{}, 0⟩ : Fetch) :=
    List.not_mem_nil
  obtain ⟨lines, proxy, ran, fetched, costs⟩ := zero.2 misses
  obtain rfl := Option.some.inj ran
  obtain rfl := Option.some.inj fetched
  exact costs rfl

end InstrCache

end Rv32

end RiscvVp
